/-
  SESSIONS — the launcher together with everything around it, as a value.

  1. **State** — a session has a store, the files, the environment, a user, a terminal and
     subscribers.  What happens is written down as a list of events, which only grows.

  2. **The user** — the user is a list of prepared answers, taken one after another; a user who
     has none left, or answers something that the question does not ask for, cancels.  While a
     question is open the settings file may be changed from outside: an answer can carry such a
     change, which takes place right before it.

  3. **Nobody there** — a session without a user at a terminal cancels every question at once.

  4. **Subscribers** — they are told of every change in the order in which they subscribed.  Some
     only take note; others print a view.
-/
import CommandLauncher.Dialog.Input
import CommandLauncher.Display.Log
import CommandLauncher.Display.Notification
import CommandLauncher.Entries
import CommandLauncher.Resolution
import CommandLauncher.Store
import CommandLauncher.Terminal

namespace CommandLauncher

/-! ## Questions and answers -/

/-- A question to the user. -/
inductive Question where
  | text (message : String) (initial : Option String)
  | confirm (message : String) (proposed : Bool)
  | select (message : String) (options : List String) (start : Nat)
  | choose (choice : Choice)
deriving DecidableEq, Repr

/-- What the user says. -/
inductive Reply where
  | cancel
  /-- A text, which is checked where the question has a check. -/
  | text (s : String)
  /-- A text that got around the check. -/
  | unchecked (s : String)
  | flag (b : Bool)
  | index (n : Nat)
deriving DecidableEq, Repr

/-- What may happen to the settings file from outside. -/
inductive OutsideChange where
  | write (content : Content)
  | delete
deriving DecidableEq, Repr

/-- The files after a change from outside to the file at a path.  What is refused to the launcher
    is not refused to others. -/
def OutsideChange.apply (path : String) (fs : FileSystem) : OutsideChange → FileSystem
  | write content =>
    match { fs with refusals := [] }.write path content with
    | .ok written => { written with refusals := fs.refusals }
    | .error _ => fs
  | delete => fs.delete path

/-- An answer, and what happens right before it. -/
structure Answer where
  reply : Reply
  outside : Option OutsideChange := none
deriving DecidableEq, Repr

/-- The files at the moment of an answer. -/
def Answer.files (path : String) (a : Answer) (fs : FileSystem) : FileSystem :=
  match a.outside with
  | some change => change.apply path fs
  | none => fs

/-! ## Subscribers -/

/-- Who is told of changes. -/
inductive Subscriber where
  /-- Takes note. -/
  | observer
  /-- Prints the variables. -/
  | variableView
  /-- Prints the tree, with every group open or as the state file says. -/
  | treeView (everythingOpen : Bool)
deriving DecidableEq, Repr

/-! ## Events and state -/

/-- Something that happened. -/
inductive Event where
  | asked (question : Question) (refused : List InputProblem)
  | notified (n : Notification)
  | shown
  | sent (text : String) (enter : Bool)
  | refreshed (subscriber : Nat) (part : Part) (s : Settings)
  | logged (entry : LogEntry)
  /-- Text on the standard output. -/
  | printed (text : String)
  /-- Text on the standard error output that is neither a notification nor an entry. -/
  | complained (text : String)
deriving DecidableEq, Repr

/-- The launcher and everything around it. -/
structure Session where
  store : Store
  files : FileSystem := {}
  environment : Environment := []
  /-- Whether there is a user to ask. -/
  attended : Bool := true
  answers : List Answer := []
  terminal : Terminal := .ready
  subscribers : List Subscriber := []
  events : List Event := []
deriving Repr, Inhabited

/-- What happens in a session. -/
abbrev SessionM := StateM Session

namespace Session

/-- Write down what happened. -/
def record (events : List Event) : SessionM Unit :=
  modify fun s => { s with events := s.events ++ events }

/-- Make an entry in the log. -/
def log (level : Level) (topic : Topic) (message : String) : SessionM Unit :=
  record [.logged { level, topic, message }]

/-- Tell the user something. -/
def notify (severity : Severity) (message : String) : SessionM Unit :=
  record [.notified { severity, message }]

/-! ## Asking -/

/-- What is noted when there is nobody to ask. -/
def unattendedNote : String := "Prompt failed: The input device is not a TTY"

/-- Cancel a question that nobody can answer. -/
def unanswered {α : Type} : SessionM (Option α) := do
  log .debug .prompt unattendedNote
  return none

/-- Take the next answer; a user without answers cancels. -/
def nextReply : SessionM Reply :=
  modifyGet fun s =>
    match s.answers with
    | [] => (.cancel, s)
    | a :: rest => (a.reply, { s with answers := rest, files := a.files s.store.path s.files })

/-- How a text question ended: the text unless it was cancelled, the inputs that were refused,
    the answers that are left and the files as they are now. -/
structure TextOutcome where
  text : Option String
  refused : List InputProblem
  answers : List Answer
  files : FileSystem

/-- Take answers to a text question until one passes the check. -/
def awaitText (path : String) (check : Check) :
    List Answer → FileSystem → List InputProblem → TextOutcome
  | [], files, refused => { text := none, refused, answers := [], files }
  | a :: rest, files, refused =>
    let files := a.files path files
    match a.reply with
    | .text s =>
      match check s with
      | none => { text := some s, refused, answers := rest, files }
      | some problem => awaitText path check rest files (refused ++ [problem])
    | .unchecked s => { text := some s, refused, answers := rest, files }
    | _ => { text := none, refused, answers := rest, files }

/-- Ask for a text. -/
def askText (message : String) (initial : Option String) (check : Check) :
    SessionM (Option String) := do
  let s ← get
  if !s.attended then unanswered
  else
    let outcome := awaitText s.store.path check s.answers s.files []
    set { s with answers := outcome.answers, files := outcome.files }
    record [.asked (.text message initial) outcome.refused]
    return outcome.text

/-- Ask a question that takes one answer; `read` says what the answer means. -/
def askOnce {α : Type} (question : Question) (read : Reply → Option α) : SessionM (Option α) := do
  if !(← get).attended then unanswered
  else
    let reply ← nextReply
    record [.asked question []]
    return read reply

/-- Ask for a yes or a no. -/
def askConfirm (message : String) (proposed : Bool) : SessionM (Option Bool) :=
  askOnce (.confirm message proposed) fun
    | .flag b => some b
    | _ => none

/-- Ask for one of the options, by its position. -/
def askSelect (message : String) (options : List String) (start : Nat) : SessionM (Option Nat) :=
  askOnce (.select message options start) fun
    | .index n => some n
    | _ => none

/-- Ask for one of the options, by its text. -/
def askChoice : Chooser SessionM := fun choice =>
  askOnce (.choose choice) fun
    | .text s => some s
    | _ => none

end Session

/-! ## Running it -/

example :
    let s : Session :=
      { store := { path := "/s.yaml" },
        answers := [{ reply := .text " " }, { reply := .text "x" }, { reply := .flag true }] }
    let after := (Session.askText "Title" none Check.title).run s
    after.1 = some "x" ∧ after.2.answers.length = 1 ∧
      after.2.events = [.asked (.text "Title" none) [.blank "Title"]] := by decide +kernel

end CommandLauncher
