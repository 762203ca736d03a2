/-
  USES — the number of uses that the view shows for a variable, against what becomes of the commands
  without it.

  1. **Misses** — an outcome misses a name if it is a failure that lists the name.  A command misses
     exactly the names that have no value (`Dispatch.misses_of`).

  2. **Without a definition** — a name that nobody defines has no value, whatever the user answers
     to the other names.  So a command misses it exactly if its text refers to it
     (`misses_run`).

  3. **With the others** — a command that does not refer to a name cannot tell whether it is defined
     (`dispatch_without`).

  4. **Uses** — the view reads the same references as the resolution, so it counts the commands that
     would fail without the variable (`uses_failing`).
-/
import CommandLauncher.Display.View
import CommandLauncher.Proofs.Effective

namespace CommandLauncher

open Template

/-! ## Misses -/

/-- Whether the outcome is a failure that lists the name. -/
def Dispatch.misses (name : String) : Dispatch → Bool
  | dispatched _ _ => false
  | failed missing => missing.contains name

theorem Dispatch.misses_of (c : Command) (general : Option Bool) (r : Resolution)
    (name : String) : (Dispatch.of c general r).misses name = true ↔ name ∈ r.missing := by
  rw [Dispatch.of, Resolution.isComplete]
  split
  · rename_i hcomplete
    rw [List.isEmpty_iff.mp hcomplete]
    exact ⟨nofun, nofun⟩
  · exact List.contains_iff_mem

/-! ## Without a definition -/

section Runs

variable {σ : Type} (choose : Chooser (StateM σ)) {vs : List Variable} {name : String}

/-- Nobody can give a value to a name that is not defined. -/
theorem mem_missing_of_undefined (h : ∀ v ∈ vs, v.name ≠ name) (text : String) (t : σ) :
    name ∈ ((resolve choose vs text).run t).1.missing ↔ name ∈ references text := by
  let found := foundBy (Variable.valueIn choose vs) (references text) t
  have hmissing : name ∈ found.missing ↔
      (∃ i, Occurs text.toList i name.toList) ∧ found.value? name = none :=
    Findings.mem_missing (foundBy_names (Variable.valueIn choose vs) (references text) t)
  show name ∈ found.missing ↔ name ∈ references text
  rw [hmissing, ← mem_references]
  refine ⟨And.left, fun hname => ⟨hname, ?_⟩⟩
  obtain ⟨earlier, later, hnames⟩ := List.append_of_mem hname
  rw [value?_foundBy (Variable.valueIn choose vs) (references_nodup text) hnames, valueIn_run,
    Variable.last?_eq_none_iff.mpr h]
  rfl

/-- A command misses such a name if its text refers to it. -/
theorem misses_run (h : ∀ v ∈ vs, v.name ≠ name) (c : Command) (general : Option Bool) (t : σ) :
    ((dispatch (Variable.valueIn choose vs) c general).run t).1.misses name = true ↔
      name ∈ references c.command := by
  show (Dispatch.of c general ((resolve choose vs c.command).run t).1).misses name = true ↔ _
  rw [Dispatch.misses_of, mem_missing_of_undefined choose h]

end Runs

/-! ## With the others -/

/-- A command that does not refer to a name does the same without its definition. -/
theorem dispatch_without {m : Type → Type} [Monad m] (choose : Chooser m)
    (earlier later : List Variable) {v : Variable} {c : Command}
    (h : v.name ∉ references c.command) (general : Option Bool) :
    dispatch (Variable.valueIn choose (earlier ++ later)) c general =
      dispatch (Variable.valueIn choose (earlier ++ v :: later)) c general := by
  have hsame : ∀ name ∈ references c.command, Variable.valueIn choose (earlier ++ later) name =
      Variable.valueIn choose (earlier ++ v :: later) name := by
    intro name hname
    have hne : v.name ≠ name := by
      rintro rfl
      exact h hname
    refine valueIn_congr choose ?_
    rw [Variable.last?_append, Variable.last?_append, Variable.last?_cons_ne hne]
  rw [dispatch, dispatch, fill_congr hsame]

/-! ## Uses -/

/-- **The view counts the commands that need the variable.**  Take a variable whose name occurs once
    among the variables of some settings, and take it out.  Whoever answers the choices, a command
    then fails and lists the name among the missing ones exactly if its text refers to the name,
    and the line of the variable shows the number of these commands.  A command that does not
    refer to the name has the same outcome as before, and puts the same choices to the user. -/
theorem uses_failing {s : Settings} {earlier later : List Variable} {v : Variable}
    (hvars : s.vars = earlier ++ v :: later) (honce : ∀ w ∈ earlier ++ later, w.name ≠ v.name)
    {σ : Type} (choose : Chooser (StateM σ)) (t : σ) (general : Option Bool) (color : Bool) :
    let run : List Variable → Command → Dispatch × σ × List Call := fun vs c =>
      (dispatch (Variable.valueIn choose.noting vs) c general).run (t, [])
    let failing := s.commands.filter fun c => (run (earlier ++ later) c).1.misses v.name
    s.uses v.name = failing.length ∧
    (∃ i : Nat, (arrange Variable.name s.vars s.sortOrder)[i]? = some v ∧
      (s.variableLines color)[i]? = some (writeLine color (v.spans failing.length))) ∧
    (∀ c ∈ s.commands, v.name ∈ references c.command ↔ c ∈ failing) ∧
    ∀ c ∈ s.commands, v.name ∉ references c.command → run (earlier ++ later) c = run s.vars c := by
  intro run failing
  have hmisses : ∀ c, (run (earlier ++ later) c).1.misses v.name = true ↔
      v.name ∈ references c.command := fun c => misses_run choose.noting honce c general (t, [])
  have huses : s.uses v.name = failing.length := by
    refine congrArg List.length (List.filter_congr fun c _ => ?_)
    rw [Bool.eq_iff_iff, List.contains_iff_mem, hmisses]
  refine ⟨huses, ?_, fun c hc => ?_, fun c hc hname => ?_⟩
  · have hv : v ∈ arrange Variable.name s.vars s.sortOrder := by
      rw [(arrange_perm Variable.name s.vars s.sortOrder).mem_iff, hvars]
      exact List.mem_append_right earlier List.mem_cons_self
    obtain ⟨i, hi⟩ := List.mem_iff_getElem?.mp hv
    refine ⟨i, hi, ?_⟩
    rw [Settings.variableLines, List.getElem?_map, hi, ← huses]
    rfl
  · rw [List.mem_filter, hmisses]
    exact (and_iff_right hc).symm
  · rw [hvars]
    exact congrArg (·.run (t, [])) (dispatch_without choose.noting earlier later hname general)

/-- Two of four commands need the variable that stands second; a third one only looks as if it
    did, and the last one has a choice. -/
theorem uses_failing_second :
    let env := Variable.selectable "env" ["dev", "prod"]
    let host := Variable.fixed "host" "localhost"
    let twice : Command := { title := "twice", command := "ssh $\x7bhost\x7d $\x7bhost\x7d" }
    let nested : Command := { title := "nested", command := "echo $\x7b$\x7bhost\x7d" }
    let blank : Command := { title := "blank", command := "echo $\x7b host\x7d" }
    let ship : Command := { title := "ship", command := "./ship $\x7benv\x7d" }
    let s : Settings := { vars := [env, host], commands := [twice, nested, blank, ship] }
    let run := fun vs c =>
      (dispatch (Variable.valueIn Chooser.prepared.noting vs) c none).run (([some "dev"], []), [])
    (s.vars = [env] ++ host :: [] ∧ ∀ w ∈ [env] ++ [], w.name ≠ host.name) ∧
    s.commands.filter (fun c => (run [env] c).1.misses "host") = [twice, nested] ∧
    s.uses "host" = 2 ∧
    (s.variableLines false)[1]? = some "host = localhost  (used by 2 commands)" ∧
    run [env] ship = run [env, host] ship := by
  intro env host twice nested blank ship s run
  have hvars : s.vars = [env] ++ host :: [] := rfl
  have honce : ∀ w ∈ [env] ++ [], w.name ≠ host.name := by decide
  obtain ⟨huses, -, -, hothers⟩ :=
    uses_failing hvars honce Chooser.prepared ([some "dev"], []) none false
  have hfailing : s.commands.filter (fun c => (run [env] c).1.misses "host") = [twice, nested] := by
    decide +kernel
  exact ⟨⟨hvars, honce⟩, hfailing, huses.trans (congrArg List.length hfailing), by decide +kernel,
    hothers ship (by decide) (by decide +kernel)⟩

end CommandLauncher
