/-
  DIALOGS — forms as prompts of which each depends on what was said before.

  1. **Hearing** — `Heard shown s s'` says that from `s` on the user gave some answers, each after
     what others did to the files, and that `shown` can be seen of what was written down.  Nothing
     else happened.

  2. **Prompts** — a prompt is a question together with what a form asks of its answer: a text has
     to pass its check, and some positions have to be among the options.

  3. **Dialogs** — a dialog is over, or it puts a prompt and goes on with what it was told.  As a
     form it ends early where the user cancels and where there is an objection to the answer.

  4. **Exchanges** — a dialog in a session is a list of exchanges: the prompts in their order, and
     what each was told.  `Dialog.tryOn_form` says that a form shows just its exchanges, is
     completed if none of them stops it, and otherwise ends with the one that does.  A single
     exchange is found by going past the prompts of other questions (`exchanges_behind`); behind it
     stand those of what the dialog goes on with (`exchanges_here`).

  5. **Forms** — the forms of variables and commands are dialogs.
-/
import CommandLauncher.Proofs.Forms

namespace CommandLauncher

open Session

/-! ## Hearing -/

/-- The user gave some answers, and `shown` can be seen of what was written down. -/
def Heard (shown : List Event) (s s' : Session) : Prop := ∃ k, Adds shown (s.answered k) s'

namespace Heard

variable {shown more : List Event} {s s' s'' : Session}

theorem of_adds (h : Adds shown s s') : Heard shown s s' := ⟨0, h⟩

theorem refl (s : Session) : Heard [] s s := of_adds (Adds.refl s)

theorem trans (h : Heard shown s s') (h' : Heard more s' s'') : Heard (shown ++ more) s s'' := by
  obtain ⟨j, h⟩ := h
  obtain ⟨k, h'⟩ := h'
  refine ⟨j + k, ?_⟩
  rw [← answered_answered]
  exact (h.answered k).trans h'

theorem silent_trans (h : Heard [] s s') (h' : Heard more s' s'') : Heard more s s'' := h.trans h'

theorem trans_silent (h : Heard shown s s') (h' : Heard [] s' s'') : Heard shown s s'' := by
  simpa using h.trans h'

theorem of_asks {qs : List Question} (h : Asks qs s s') : Heard (s.asked qs) s s' := ⟨_, h⟩

theorem attended_eq (h : Heard shown s s') : s'.attended = s.attended := by
  obtain ⟨k, es, rfl, -⟩ := h
  rfl

theorem store_eq (h : Heard shown s s') : s'.store = s.store := by
  obtain ⟨k, es, rfl, -⟩ := h
  rfl

end Heard

/-! ### Texts -/

/-- Waiting for a text takes some answers. -/
theorem awaitText_answered (path : String) (check : Check) (answers : List Answer) :
    ∀ (files : FileSystem) (refused : List InputProblem), ∃ k,
      (awaitText path check answers files refused).answers = answers.drop k ∧
      (awaitText path check answers files refused).files =
        (answers.take k).foldl (fun fs a => a.files path fs) files := by
  induction answers with
  | nil => exact fun _ _ => ⟨0, rfl, rfl⟩
  | cons a rest ih =>
    intro files refused
    rw [awaitText]
    split
    · split
      · exact ⟨1, rfl, rfl⟩
      · -- one refused input more, and the answers that come after it
        obtain ⟨k, hanswers, hfiles⟩ := ih (a.files path files) _
        exact ⟨k + 1, hanswers, hfiles⟩
    · exact ⟨1, rfl, rfl⟩
    · exact ⟨1, rfl, rfl⟩

namespace Session

/-- The inputs that a text question refuses. -/
def refusedBy (s : Session) (check : Check) : List InputProblem :=
  if s.attended then (awaitText s.store.path check s.answers s.files []).refused else []

/-- What can be seen of a text question. -/
def askedText (s : Session) (message : String) (initial : Option String) (check : Check) :
    List Event :=
  if s.attended then [.asked (.text message initial) (s.refusedBy check)] else []

end Session

theorem Heard.askText (message : String) (initial : Option String) (check : Check) (s : Session) :
    Heard (s.askedText message initial check) s
      ((Session.askText message initial check).run s).2 := by
  have hrun : (Session.askText message initial check).run s =
      (if !s.attended then (unanswered : SessionM (Option String)) else do
        let outcome := awaitText s.store.path check s.answers s.files []
        set { s with answers := outcome.answers, files := outcome.files }
        record [.asked (.text message initial) outcome.refused]
        return outcome.text).run s := rfl
  rw [hrun, askedText, refusedBy]
  obtain ⟨store, files, environment, attended, answers, terminal, subscribers, events⟩ := s
  cases attended with
  | false => exact of_adds (Adds.log .debug .prompt unattendedNote _)
  | true =>
    obtain ⟨k, hanswers, hfiles⟩ := awaitText_answered store.path check answers files []
    refine ⟨k, [.asked (.text message initial)
      (awaitText store.path check answers files []).refused], ?_, rfl⟩
    rw [answered, ← hanswers, ← hfiles]
    rfl

/-! ## Prompts -/

/-- A question of a form, with what the form asks of the answer. -/
inductive Prompt where
  /-- The text has to pass the check. -/
  | text (message : String) (initial : Option String) (check : Check)
  | confirm (message : String) (proposed : Bool)
  /-- Where `listed` is set, the position has to be that of an option. -/
  | select (message : String) (options : List String) (start : Nat) (listed : Bool)

namespace Prompt

/-- What a prompt is told. -/
@[reducible]
def Told : Prompt → Type
  | text .. => String
  | confirm .. => Bool
  | select .. => Nat

/-- The question of a prompt. -/
def question : Prompt → Question
  | text message initial _ => .text message initial
  | confirm message proposed => .confirm message proposed
  | select message options start _ => .select message options start

/-- Put a prompt to the user. -/
def ask : (p : Prompt) → SessionM (Option p.Told)
  | text message initial check => askText message initial check
  | confirm message proposed => askConfirm message proposed
  | select message options start _ => askSelect message options start

/-- Why a form does not go on with what it was told, if there is a reason. -/
def objection? : (p : Prompt) → p.Told → Option Stop
  | text _ _ check, input => (check input).map .refused
  | confirm .., _ => none
  | select _ options _ listed, n => if listed && options.length ≤ n then some .cancelled else none

/-- The inputs that a prompt refuses before it takes one. -/
def refusedIn : Prompt → Session → List InputProblem
  | text _ _ check, s => s.refusedBy check
  | _, _ => []

end Prompt

/-- A prompt that was put to the user, the inputs that it refused, and what it was told: nothing
    where the user cancelled. -/
structure Exchange where
  prompt : Prompt
  refused : List InputProblem
  told : Option prompt.Told

namespace Exchange

/-- Why a form ends with this exchange, if it does. -/
def stop? (e : Exchange) : Option Stop :=
  match e.told with
  | none => some .cancelled
  | some told => e.prompt.objection? told

/-- What can be seen of an exchange. -/
def event (e : Exchange) : Event := .asked e.prompt.question e.refused

end Exchange

/-- Exchanges as they can be seen, if there is a user. -/
def Session.shown (s : Session) (es : List Exchange) : List Event :=
  if s.attended then es.map Exchange.event else []

theorem Session.shown_append (s : Session) (es fs : List Exchange) :
    s.shown (es ++ fs) = s.shown es ++ s.shown fs := by
  cases h : s.attended <;> simp [shown, h]

/-- A prompt in a session. -/
def Prompt.exchange (p : Prompt) (s : Session) : Exchange where
  prompt := p
  refused := p.refusedIn s
  told := (p.ask.run s).1

/-- Putting a prompt shows its exchange. -/
theorem Heard.prompt (p : Prompt) (s : Session) :
    Heard (s.shown [p.exchange s]) s (p.ask.run s).2 := by
  have honce : ∀ {α : Type} (q : Question) (read : Reply → Option α),
      Heard (if s.attended then [.asked q []] else []) s ((askOnce q read).run s).2 :=
    fun q read => of_asks (Asks.askOnce q read s)
  cases p with
  | text message initial check => exact Heard.askText message initial check s
  | confirm message proposed => exact honce _ _
  | select message options start listed => exact honce _ _

/-- What was written down before does not matter to a prompt. -/
theorem Prompt.ask_withEvents (p : Prompt) (s : Session) (es : List Event) :
    ∃ fs, p.ask.run { s with events := es } =
      ((p.ask.run s).1, { (p.ask.run s).2 with events := fs }) := by
  obtain ⟨store, files, environment, attended, answers, terminal, subscribers, events⟩ := s
  have honce : ∀ {α : Type} (q : Question) (read : Reply → Option α), ∃ fs,
      (askOnce q read).run ⟨store, files, environment, attended, answers, terminal, subscribers, es⟩ =
        let asked := (askOnce q read).run
          ⟨store, files, environment, attended, answers, terminal, subscribers, events⟩
        (asked.1, { asked.2 with events := fs }) := by
    intro α q read
    cases attended with
    | false => exact ⟨_, rfl⟩
    | true =>
      cases answers with
      | nil => exact ⟨_, rfl⟩
      | cons a rest => exact ⟨_, rfl⟩
  cases p with
  | text message initial check =>
    cases attended with
    | false => exact ⟨_, rfl⟩
    | true => exact ⟨_, rfl⟩
  | confirm message proposed => exact honce _ _
  | select message options start listed => exact honce _ _

theorem Prompt.exchange_withEvents (p : Prompt) (s : Session) (es : List Event) :
    p.exchange { s with events := es } = p.exchange s := by
  obtain ⟨fs, hask⟩ := p.ask_withEvents s es
  have hrefused : p.refusedIn { s with events := es } = p.refusedIn s := by cases p <;> rfl
  rw [exchange, exchange, hask, hrefused]

/-! ## Dialogs -/

/-- Prompts of which each depends on what was said before, and what comes of them in the end. -/
inductive Dialog (α : Type) where
  | done (a : α)
  | ask (p : Prompt) (next : p.Told → Dialog α)

namespace Dialog

variable {α β : Type}

/-- One dialog after the other. -/
def bind : Dialog α → (α → Dialog β) → Dialog β
  | done a, f => f a
  | ask p next, f => ask p fun told => (next told).bind f

instance : Monad Dialog where
  pure := done
  bind := bind

/-- A dialog as a form: it ends early where the user cancels, and where there is an objection. -/
def form : Dialog α → Form α
  | done a => return a
  | ask p next => do
    let told ← Form.answer p.ask
    match p.objection? told with
    | some stop => throw stop
    | none => (next told).form

theorem form_bind (d : Dialog α) (f : α → Dialog β) :
    (d >>= f).form = d.form >>= fun a => (f a).form := by
  induction d with
  | done a => exact (pure_bind a fun a => (f a).form).symm
  | ask p next ih =>
    show (do
      let told ← Form.answer p.ask
      match p.objection? told with
      | some stop => throw stop
      | none => (next told >>= f).form) = form (ask p next) >>= _
    rw [form, bind_assoc]
    refine congrArg _ (funext fun told => ?_)
    cases p.objection? told with
    | some stop => rfl
    | none => exact ih told

/-- Ask for a text. -/
def text (message : String) (initial : Option String) (check : Check) : Dialog String :=
  ask (.text message initial check) done

/-- Ask for a yes or a no. -/
def confirm (message : String) (proposed : Bool) : Dialog Bool :=
  ask (.confirm message proposed) done

/-- Ask for a position, which may have to be that of an option. -/
def select (message : String) (options : List String) (start : Nat) (listed : Bool) : Dialog Nat :=
  ask (.select message options start listed) done

theorem form_text (message : String) (initial : Option String) (check : Check) :
    (text message initial check).form = Form.text message initial check := by
  rw [text, form, Form.text]
  refine congrArg _ (funext fun input => ?_)
  show (match (check input).map Stop.refused with
    | some stop => throw stop
    | none => form (done input)) = _
  cases check input with
  | some problem => rfl
  | none => rfl

theorem form_confirm (message : String) (proposed : Bool) :
    (confirm message proposed).form = Form.confirm message proposed :=
  bind_pure (Form.confirm message proposed)

theorem form_select (message : String) (options : List String) (start : Nat) (listed : Bool) :
    (select message options start listed).form = do
      let n ← Form.select message options start
      if listed && options.length ≤ n then throw .cancelled else return n := by
  rw [select, form, Form.select]
  refine congrArg _ (funext fun n => ?_)
  show (match (if listed && options.length ≤ n then some Stop.cancelled else none) with
    | some stop => throw stop
    | none => form (done n)) = _
  by_cases h : (listed && decide (options.length ≤ n)) = true
  · rw [if_pos h, if_pos h]
  · rw [if_neg h, if_neg h]
    rfl

theorem form_select_any (message : String) (options : List String) (start : Nat) :
    (select message options start false).form = Form.select message options start := by
  rw [form_select]
  exact bind_pure _

/-! ## Exchanges -/

/-- The exchanges of a dialog in a session, up to the one that stops it. -/
def exchanges : Dialog α → Session → List Exchange
  | done _, _ => []
  | ask p next, s =>
    p.exchange s ::
      match (p.ask.run s).1 with
      | none => []
      | some told =>
        match p.objection? told with
        | some _ => []
        | none => (next told).exchanges (p.ask.run s).2

/-- What was written down before does not matter to a dialog. -/
theorem exchanges_withEvents (d : Dialog α) : ∀ (s : Session) (es : List Event),
    d.exchanges { s with events := es } = d.exchanges s := by
  induction d with
  | done a => exact fun _ _ => rfl
  | ask p next ih =>
    intro s es
    obtain ⟨fs, hask⟩ := p.ask_withEvents s es
    rw [exchanges, exchanges, p.exchange_withEvents, hask]
    simp only [ih]

theorem exchanges_eq {shown : List Event} {s s' : Session} (d : Dialog α) (h : Adds shown s s') :
    d.exchanges s' = d.exchanges s := by
  obtain ⟨es, rfl, -⟩ := h
  exact d.exchanges_withEvents s _

/-- What a dialog comes to. -/
def Ends (es : List Exchange) : Except Stop α → Prop
  | .ok _ => ∀ e ∈ es, e.stop? = none
  | .error stop => ∃ earlier last, es = earlier ++ [last] ∧ last.stop? = some stop ∧
      ∀ e ∈ earlier, e.stop? = none

/-- A form puts its first prompt, and goes on unless the user cancels or there is an objection. -/
theorem tryOn_form_ask (p : Prompt) (next : p.Told → Dialog α) (s : Session) :
    tryOn (ask p next).form s =
      match (p.ask.run s).1 with
      | none => (.error .cancelled, (p.ask.run s).2)
      | some told =>
        match p.objection? told with
        | some stop => (.error stop, (p.ask.run s).2)
        | none => tryOn (next told).form (p.ask.run s).2 := by
  rw [form, Form.answer, bind_assoc, tryOn_bind_lift]
  cases (p.ask.run s).1 with
  | none => rfl
  | some told =>
    rw [pure_bind]
    dsimp only
    cases p.objection? told with
    | some stop => rfl
    | none => rfl

/-- **A dialog shows its exchanges and nothing else**, and is completed exactly if none of them
    stops it; one that does is the last. -/
theorem tryOn_form (d : Dialog α) : ∀ s,
    Heard (s.shown (d.exchanges s)) s (tryOn d.form s).2 ∧
      Ends (d.exchanges s) (tryOn d.form s).1 := by
  induction d with
  | done a =>
    intro s
    have hnothing : s.shown [] = [] := by rw [shown, List.map_nil, ite_self]
    refine ⟨?_, fun _ he => absurd he List.not_mem_nil⟩
    rw [exchanges, hnothing]
    exact Heard.refl s
  | ask p next ih =>
    intro s
    have hask := Heard.prompt p s
    rw [tryOn_form_ask, exchanges]
    cases htold : (p.ask.run s).1 with
    | none =>
      refine ⟨hask, [], p.exchange s, rfl, ?_, by simp⟩
      rw [Exchange.stop?, Prompt.exchange, htold]
    | some told =>
      have hstop : (p.exchange s).stop? = p.objection? told := by
        rw [Exchange.stop?, Prompt.exchange, htold]
      dsimp only
      cases hobjection : p.objection? told with
      | some stop => exact ⟨hask, [], p.exchange s, rfl, hstop.trans hobjection, by simp⟩
      | none =>
        obtain ⟨hheard, hends⟩ := ih told (p.ask.run s).2
        have hattended := hask.attended_eq
        rw [shown, hattended] at hheard
        refine ⟨?_, ?_⟩
        · rw [← List.singleton_append, shown_append]
          exact hask.trans hheard
        · dsimp only
          cases hresult : (tryOn (next told).form (p.ask.run s).2).1 with
          | ok a =>
            rw [hresult] at hends
            exact List.forall_mem_cons.mpr ⟨hstop.trans hobjection, hends⟩
          | error stop =>
            rw [hresult] at hends
            obtain ⟨earlier, last, hes, hlast, hearlier⟩ := hends
            refine ⟨p.exchange s :: earlier, last, ?_, hlast,
              List.forall_mem_cons.mpr ⟨hstop.trans hobjection, hearlier⟩⟩
            rw [hes, List.cons_append]

/-! ### Single exchanges -/

/-- Without an objection to what it was told a form goes on with the rest of its dialog. -/
theorem tryOn_form_told {p : Prompt} {next : p.Told → Dialog α} {s : Session} {told : p.Told}
    (htold : (p.ask.run s).1 = some told) (hfine : p.objection? told = none) :
    tryOn (ask p next).form s = tryOn (next told).form (p.ask.run s).2 := by
  rw [tryOn_form_ask, htold]
  dsimp only
  rw [hfine]

/-- The first exchange of a dialog is that of its prompt. -/
theorem exchanges_ask (p : Prompt) (next : p.Told → Dialog α) (s : Session) :
    ∃ first rest, (ask p next).exchanges s = first :: rest ∧ first.prompt = p := by
  rw [exchanges]
  exact ⟨p.exchange s, _, rfl, rfl⟩

/-- An exchange of a dialog is its first one, or one of what the dialog goes on with. -/
theorem exchanges_split {p : Prompt} {next : p.Told → Dialog α} {s : Session}
    {earlier later : List Exchange} {e : Exchange}
    (h : (ask p next).exchanges s = earlier ++ e :: later) :
    (earlier = [] ∧ e = p.exchange s) ∨
      ∃ told earlier', (p.ask.run s).1 = some told ∧ p.objection? told = none ∧
        (next told).exchanges (p.ask.run s).2 = earlier' ++ e :: later := by
  cases earlier with
  | nil =>
    rw [exchanges, List.nil_append] at h
    exact .inl ⟨rfl, (List.cons.inj h).1.symm⟩
  | cons first rest =>
    refine .inr ?_
    rw [exchanges, List.cons_append] at h
    have hrest := (List.cons.inj h).2
    cases htold : (p.ask.run s).1 with
    | none =>
      rw [htold] at hrest
      simp at hrest
    | some told =>
      rw [htold] at hrest
      dsimp only at hrest
      cases hobjection : p.objection? told with
      | some stop =>
        rw [hobjection] at hrest
        simp at hrest
      | none =>
        rw [hobjection] at hrest
        exact ⟨told, rest, rfl, hobjection, hrest⟩

/-- Whether a dialog may put a question. -/
def MayPut (q : Question) : Dialog α → Prop
  | done _ => False
  | ask p next => p.question = q ∨ ∃ told, (next told).MayPut q

/-- The question of an exchange is one that the dialog may put. -/
theorem mayPut_of_exchanges {e : Exchange} (d : Dialog α) : ∀ {s : Session}
    {earlier later : List Exchange}, d.exchanges s = earlier ++ e :: later →
      d.MayPut e.prompt.question := by
  induction d with
  | done a =>
    intro s earlier later h
    rw [exchanges] at h
    simp at h
  | ask p next ih =>
    intro s earlier later h
    obtain ⟨-, rfl⟩ | ⟨told, earlier', -, -, h⟩ := exchanges_split h
    · exact .inl rfl
    · exact .inr ⟨told, ih told h⟩

/-- A dialog whose first question is another one goes on to the exchange. -/
theorem exchanges_behind {p : Prompt} {next : p.Told → Dialog α} {s : Session}
    {earlier later : List Exchange} {e : Exchange} {outcome : Except Stop α × Session}
    (h : (ask p next).exchanges s = earlier ++ e :: later)
    (hform : tryOn (ask p next).form s = outcome) (hother : p.question ≠ e.prompt.question) :
    ∃ told s' earlier', (next told).exchanges s' = earlier' ++ e :: later ∧
      tryOn (next told).form s' = outcome := by
  obtain ⟨-, rfl⟩ | ⟨told, earlier', htold, hfine, hnext⟩ := exchanges_split h
  · exact absurd rfl hother
  · exact ⟨told, _, earlier', hnext, (tryOn_form_told htold hfine).symm.trans hform⟩

/-- Where only the first prompt puts its question, the dialog goes on behind that exchange, unless
    there is an objection to what was told. -/
theorem exchanges_here {p : Prompt} {next : p.Told → Dialog α} {s : Session}
    {earlier later : List Exchange} {e : Exchange} {outcome : Except Stop α × Session}
    (h : (ask p next).exchanges s = earlier ++ e :: later)
    (hform : tryOn (ask p next).form s = outcome)
    (honce : ∀ told, ¬ (next told).MayPut e.prompt.question) :
    e = p.exchange s ∧ ∀ told, (p.ask.run s).1 = some told →
      match p.objection? told with
      | some stop => outcome.1 = .error stop
      | none => ∃ s', (next told).exchanges s' = later ∧ tryOn (next told).form s' = outcome := by
  obtain ⟨rfl, rfl⟩ | ⟨told, earlier', -, -, hnext⟩ := exchanges_split h
  · refine ⟨rfl, fun told htold => ?_⟩
    rw [exchanges, htold, List.nil_append] at h
    rw [tryOn_form_ask, htold] at hform
    dsimp only at h hform
    cases hobjection : p.objection? told with
    | some stop =>
      rw [hobjection] at hform
      exact congrArg Prod.fst hform.symm
    | none =>
      rw [hobjection] at h hform
      exact ⟨_, (List.cons.inj h).2, hform⟩
  · exact absurd (mayPut_of_exchanges _ hnext) (honce told)

/-- Whether all that a dialog may come to has a property. -/
def EndsIn (P : α → Prop) : Dialog α → Prop
  | done a => P a
  | ask _ next => ∀ told, (next told).EndsIn P

/-- What a completed form gives is something that its dialog may come to. -/
theorem of_endsIn {P : α → Prop} {a : α} (d : Dialog α) (h : d.EndsIn P) : ∀ {s : Session},
    (tryOn d.form s).1 = .ok a → P a := by
  induction d with
  | done b =>
    intro s hform
    obtain rfl : b = a := Except.ok.inj hform
    exact h
  | ask p next ih =>
    intro s hform
    rw [tryOn_form_ask] at hform
    split at hform
    · cases hform
    · split at hform
      · cases hform
      · exact ih _ (h _) hform

/-! ## Forms -/

/-- The value of a variable, and its options if it is of that kind. -/
def variableValue (initial : Option Variable) (kind : Nat) :
    Dialog (String × Option (List String)) :=
  if kind = Variable.selectableKind then do
    let current := (initial.bind Variable.choices).map (Text.join ", ")
    let input ← text "Options (comma separated)" current Check.options
    let options := Variable.parseOptions input
    let picked ← select "Default value" options (Variable.defaultPosition initial options) true
    -- the position is that of an option, or the dialog would have ended
    return (options.getD picked "", some options)
  else do
    let value ← text "Value" (initial.map Variable.value) Check.anything
    return (value, none)

/-- The form of a variable. -/
def variableForm (initial : Option Variable) : Dialog Variable := do
  let name ← text "Variable name" (initial.map Variable.name) Check.name
  let start := if initial.any Variable.isSelectable then Variable.selectableKind else 0
  let kind ← select "Variable type" Variable.kinds start false
  let (value, options) ← variableValue initial kind
  let description ← text "Description (optional)" (initial.bind Variable.description)
    Check.anything
  return {
    name := Text.trim name, value, description := Text.nonBlank description, options }

/-- The form of a command. -/
def commandForm (initial : Option Command) : Dialog Command := do
  let title ← text "Title" (initial.map Command.title) Check.title
  let command ← text "Command (use $\x7bname\x7d for variables)" (initial.map Command.command)
    Check.command
  let group ← text "Group (optional, e.g. Ops/Deploy)" (initial.bind Command.group)
    Check.anything
  let description ← text "Description (optional)" (initial.bind Command.description)
    Check.anything
  let current := initial.bind Command.sendNewLine
  let enter ← confirm "Press enter after sending the command?" (current.getD true)
  let base := initial.getD { title := "", command := "" }
  return { base with
    title := Text.trim title
    command := Text.trim command
    group := Text.nonBlank group
    description := Text.nonBlank description
    sendNewLine := Form.storedFlag current enter }

theorem form_variableValue (initial : Option Variable) (kind : Nat) :
    (variableValue initial kind).form = Form.variableValue initial kind := by
  rw [variableValue, Form.variableValue]
  split
  · rw [form_bind, form_text]
    refine congrArg _ (funext fun input => ?_)
    rw [form_bind, form_select, bind_assoc]
    refine congrArg _ (funext fun picked => ?_)
    by_cases hpicked : picked < (Variable.parseOptions input).length
    · have hvalue : (Variable.parseOptions input).getD picked "" =
          (Variable.parseOptions input)[picked] := by
        rw [List.getD_eq_getElem?_getD, List.getElem?_eq_getElem hpicked, Option.getD_some]
      rw [if_neg (by simpa using hpicked), pure_bind, List.getElem?_eq_getElem hpicked, hvalue]
      rfl
    · rw [if_pos (by simpa using hpicked), List.getElem?_eq_none (by simpa using hpicked)]
      rfl
  · rw [form_bind, form_text]
    rfl

/-- The form of a variable is a dialog. -/
theorem form_variableForm (initial : Option Variable) :
    (variableForm initial).form = Form.variableForm initial := by
  rw [variableForm, form_bind, form_text]
  refine congrArg _ (funext fun name => ?_)
  rw [form_bind, form_select_any]
  refine congrArg _ (funext fun kind => ?_)
  rw [form_bind, form_variableValue]
  refine congrArg _ (funext fun value => ?_)
  rw [form_bind, form_text]
  rfl

/-- The form of a command is a dialog. -/
theorem form_commandForm (initial : Option Command) :
    (commandForm initial).form = Form.commandForm initial := by
  rw [commandForm, form_bind, form_text]
  refine congrArg _ (funext fun title => ?_)
  rw [form_bind, form_text]
  refine congrArg _ (funext fun command => ?_)
  rw [form_bind, form_text]
  refine congrArg _ (funext fun group => ?_)
  rw [form_bind, form_text]
  refine congrArg _ (funext fun description => ?_)
  rw [form_bind, form_confirm]
  rfl

end Dialog

end CommandLauncher
