/-
  PROMPTING — how a command's text is filled in by asking the user.

  1. **Said in advance** — the user's answers are known before anything is asked, so what will be
     found for each name can be read off the variables and the answers: a name takes an answer
     exactly when its last definition has choices (`findingsWith`).

  2. **Said by the session** — looking the names up in a session finds just that, and puts exactly
     those choices to the user, in order (`lookUp_all`, an induction on the names).

  3. **The terminal** — looking names up never looks at the terminal (`Blind.lookUpAll`).
-/
import CommandLauncher.Proofs.Findings
import CommandLauncher.Proofs.Sessions

namespace CommandLauncher

open Session

/-! ## Said in advance -/

/-- The option that a reply picks; any other reply cancels. -/
def Reply.choice? : Reply → Option String
  | .text s => some s
  | _ => none

/-- What the user will say to the choices to come; nobody says nothing. -/
def Session.picks (s : Session) : List (Option String) :=
  if s.attended then s.answers.map fun a => a.reply.choice? else []

/-- The choice that a variable puts to the user, if it has one. -/
def Variable.choice? (v : Variable) : Option Choice :=
  v.choices.map fun options => { message := v.choiceMessage, options }

/-- The choices that some names put to the user, in order. -/
def choicesFor (vs : List Variable) (names : List String) : List Choice :=
  names.filterMap fun n => (Variable.last? vs n).bind Variable.choice?

/-- What is found for each name: nothing for a name without definition, the value of one with a
    value of its own, and for one with choices the next pick, which may be to cancel. -/
def findingsWith (vs : List Variable) : List (Option String) → List String → Findings
  | _, [] => []
  | picks, n :: ns =>
    match Variable.last? vs n with
    | none => (n, none) :: findingsWith vs picks ns
    | some v =>
      match v.choices with
      | none => (n, some v.value) :: findingsWith vs picks ns
      | some _ => (n, picks.head?.join) :: findingsWith vs picks.tail ns

/-! ## One choice -/

theorem askChoice_eq (choice : Choice) :
    askChoice choice = askOnce (.choose choice) Reply.choice? := by
  have hread : (fun r : Reply => match r with | .text s => some s | _ => none) = Reply.choice? := by
    funext r
    cases r <;> rfl
  rw [← hread]
  rfl

theorem askChoice_fst (choice : Choice) (s : Session) :
    ((askChoice choice).run s).1 = s.picks.head?.join := by
  rw [askChoice_eq, askOnce_fst, picks, reply]
  cases s.attended with
  | false => rfl
  | true =>
    cases s.answers with
    | nil => rfl
    | cons a rest => rfl

theorem Asks.askChoice (choice : Choice) (s : Session) :
    Asks [.choose choice] s ((Session.askChoice choice).run s).2 := by
  rw [askChoice_eq]
  exact Asks.askOnce _ _ s

/-- What has been asked cannot be picked from any more. -/
theorem Asks.picks_eq {qs : List Question} {s s' : Session} (h : Asks qs s s') :
    s'.picks = s.picks.drop qs.length := by
  obtain ⟨es, rfl, -⟩ := h
  show (s.answered (s.taken qs.length)).picks = _
  cases h : s.attended <;> simp [picks, answered, taken, h, List.map_drop]

/-! ## One name -/

/-- Looking a name up is finding its value and perhaps making an entry in the log. -/
theorem lookUp_run (vs : List Variable) (n : String) (s : Session) :
    ((Attempt.lookUp vs n).run s).1 = ((Variable.valueIn askChoice vs n).run s).1 ∧
      Adds [] ((Variable.valueIn askChoice vs n).run s).2 ((Attempt.lookUp vs n).run s).2 := by
  rw [Attempt.lookUp, run_bind]
  split
  · exact ⟨rfl, Adds.log _ _ _ _⟩
  · exact ⟨rfl, Adds.refl _⟩

section OneName

variable {vs : List Variable} {n : String} (s : Session)

theorem valueIn_undefined (h : Variable.last? vs n = none) :
    (Variable.valueIn askChoice vs n).run s = (none, s) := by
  rw [Variable.valueIn, h]
  rfl

theorem valueIn_fixed {v : Variable} (h : Variable.last? vs n = some v) (hv : v.choices = none) :
    (Variable.valueIn askChoice vs n).run s = (some v.value, s) := by
  rw [Variable.valueIn, h]
  dsimp only
  rw [hv]
  rfl

theorem valueIn_choice {v : Variable} {options : List String} (h : Variable.last? vs n = some v)
    (hv : v.choices = some options) :
    (Variable.valueIn askChoice vs n).run s =
      (askChoice { message := v.choiceMessage, options }).run s := by
  rw [Variable.valueIn, h]
  dsimp only
  rw [hv]

end OneName

/-- The choices of one name: one, or none. -/
def choicesOf (vs : List Variable) (n : String) : List Choice :=
  ((Variable.last? vs n).bind Variable.choice?).toList

/-- What looking one name up comes to: its finding is the one said in advance, and its choice is
    put to the user. -/
theorem lookUp_one (vs : List Variable) (n : String) (s : Session) :
    (∀ ns, findingsWith vs s.picks (n :: ns) =
      (n, ((Attempt.lookUp vs n).run s).1) ::
        findingsWith vs (s.picks.drop (choicesOf vs n).length) ns) ∧
    Asks ((choicesOf vs n).map .choose) s ((Attempt.lookUp vs n).run s).2 := by
  obtain ⟨hvalue, hlog⟩ := lookUp_run vs n s
  rw [hvalue, choicesOf]
  cases hd : Variable.last? vs n with
  | none =>
    rw [valueIn_undefined s hd] at hlog ⊢
    exact ⟨fun ns => by simp [findingsWith, hd], Asks.of_silent hlog⟩
  | some v =>
    rw [Option.bind_some, Variable.choice?]
    cases hc : v.choices with
    | none =>
      rw [valueIn_fixed s hd hc] at hlog ⊢
      exact ⟨fun ns => by simp [findingsWith, hd, hc], Asks.of_silent hlog⟩
    | some options =>
      rw [valueIn_choice s hd hc] at hlog ⊢
      refine ⟨fun ns => ?_, (Asks.askChoice _ s).trans_silent hlog⟩
      rw [askChoice_fst]
      simp [findingsWith, hd, hc]

/-! ## All names -/

/-- The choices of one more name. -/
theorem choicesFor_cons (vs : List Variable) (n : String) (ns : List String) :
    choicesFor vs (n :: ns) = choicesOf vs n ++ choicesFor vs ns := by
  cases h : (Variable.last? vs n).bind Variable.choice? <;> simp [choicesFor, choicesOf, h]

/-- **A session finds what was said in advance**, and puts the choices of the names to the user in
    order. -/
theorem lookUp_all (vs : List Variable) (names : List String) : ∀ s : Session,
    foundBy (Attempt.lookUp vs) names s = findingsWith vs s.picks names ∧
      Asks ((choicesFor vs names).map .choose) s (stateAfter (Attempt.lookUp vs) names s) := by
  induction names with
  | nil => exact fun s => ⟨rfl, Asks.of_silent (Adds.refl s)⟩
  | cons n ns ih =>
    intro s
    obtain ⟨hfinding, hone⟩ := lookUp_one vs n s
    obtain ⟨hfound, hrest⟩ := ih ((Attempt.lookUp vs n).run s).2
    -- the other names pick from the answers that the first one left
    rw [hone.picks_eq, List.length_map] at hfound
    refine ⟨by rw [foundBy_cons, hfound, hfinding], ?_⟩
    rw [choicesFor_cons, List.map_append]
    exact hone.trans hrest

/-! ## The terminal -/

theorem Blind.lookUp (vs : List Variable) (n : String) : Blind (Attempt.lookUp vs n) := by
  have hvalue : Blind (Variable.valueIn askChoice vs n) := by
    rw [Variable.valueIn]
    split
    · exact Blind.pure none
    · split
      · rw [askChoice_eq]
        exact Blind.askOnce _ _
      · exact Blind.pure _
  refine hvalue.bind fun value => ?_
  dsimp only
  split
  · exact (Blind.record _).bind fun _ => Blind.pure value
  · exact Blind.pure value

theorem Blind.lookUpAll (vs : List Variable) (names : List String) :
    Blind (findAll (Attempt.lookUp vs) names) := by
  induction names with
  | nil => exact Blind.pure []
  | cons n ns ih => exact (Blind.lookUp vs n).bind fun _ => ih.bind fun _ => Blind.pure _

end CommandLauncher
