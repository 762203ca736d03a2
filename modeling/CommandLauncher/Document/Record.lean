/-
  RECORDS — reading nodes as texts, flags, lists and records.

  The formats differ in what they accept: one takes any scalar for a text, another only a quoted
  one; one writes a record as a list of its fields in order if it likes, another never does.
  What they share is the record: which fields there are, which of them must be present, and what
  each is read as.

  1. **Dialects** — a `Dialect` is what a format says about single nodes.  Its complaints name no
     place; a complaint is `here` when it belongs to the node at hand and `around` when it belongs
     to the record that the node is a field of.

  2. **Shapes** — a `RecordShape` lists the fields of a record type `β` in their order.  Reading a
     field updates a record that starts out `blank`.

  3. **Reading by name** — fields may come in any order.  A name that comes twice is refused as
     soon as it is seen the second time; an unknown name is passed over, but its value has to be
     sound; a missing field is noticed at the end, the first one in the shape's order.

  4. **Reading by position** — items are taken for the fields in order.  When they end early, the
     remaining fields must all be optional.

  Everything is met from front to back, and the first complaint is the answer.
-/
import CommandLauncher.Document.Fault
import CommandLauncher.Document.Node

namespace CommandLauncher.Document

/-! ## What a format says about a node -/

/-- A complaint about a node, without its place. -/
inductive Complaint where
  | syntaxError
  | here (problem : Problem)
  | around (problem : Problem)

/-- The parts of a record: entries by name, or items by position. -/
inductive Parts (α : Type) where
  | named (entries : List (Node α × Node α)) (whole : Bool)
  | ordered (items : List (Node α)) (whole : Bool)

/-- A word from a closed list, with what its node may still be found guilty of, and the place at
    which an unknown word is reported. -/
structure Word where
  word : String
  content : Except Complaint Unit
  unknown : Problem → Complaint

/-- How a format presents its nodes. -/
structure Dialect (α : Type) where
  /-- Read a text. -/
  text : Node α → Except Complaint String
  /-- Read a flag. -/
  flag : Node α → Except Complaint Bool
  /-- Whether an optional value is left out. -/
  isAbsent : Node α → Except Complaint Bool
  /-- Read a list: its items, and whether its end was reached. -/
  items : Node α → Except Complaint (List (Node α) × Bool)
  /-- Read a record of the given description. -/
  parts : String → Node α → Except Complaint (Parts α)
  /-- Read the name of a field, and tell how the way to its value is shown. -/
  key : Node α → Except Complaint (String × Step)
  /-- Read a word from a closed list. -/
  word : Node α → Except Complaint Word

/-- Give a complaint its place: the node's own, or that of the record around it. -/
def Complaint.fault (record place : Place) : Complaint → Fault
  | syntaxError => .syntaxError
  | here problem => .shape place problem
  | around problem => .shape record problem

/-- Give complaints their place. -/
def located {β : Type} (record place : Place) (r : Except Complaint β) : Except Fault β :=
  r.mapError (Complaint.fault record place)

/-! ## Shapes -/

/-- One field of a record type `β`. -/
structure Field (α β : Type) where
  name : String
  required : Bool
  /-- Read the field's node, at the given place inside the record at the given place. -/
  read : Place → Place → Node α → β → Except Fault β

/-- A record type: how it is called in messages, what it is before any field is read, and its
    fields. -/
structure RecordShape (α β : Type) where
  title : String
  blank : β
  fields : List (Field α β)

namespace RecordShape

variable {α β : Type}

/-- The record's description with the number of its fields. -/
def countedTitle (shape : RecordShape α β) : String :=
  let n := shape.fields.length
  shape.title ++ " with " ++ toString n ++ (if n = 1 then " element" else " elements")

/-- Read the entries; `seen` are the names of the fields read so far. -/
def readNamed (d : Dialect α) (shape : RecordShape α β) (place : Place) (whole : Bool) :
    List (Node α × Node α) → List String → β → Except Fault (List String × β)
  | [], seen, record => if whole then .ok (seen, record) else .error .syntaxError
  | (k, v) :: rest, seen, record => do
    let (name, step) ← located place place (d.key k)
    match shape.fields.find? (fun f => f.name = name) with
    | none =>
      if v.isWhole then readNamed d shape place whole rest seen record
      else .error .syntaxError
    | some f =>
      if name ∈ seen then .error (.shape place (.repeatedField name))
      else
        let record ← f.read place (place ++ [step]) v record
        readNamed d shape place whole rest (name :: seen) record

/-- Read the items for the fields in order; `index` items have been read. -/
def readOrdered (shape : RecordShape α β) (place : Place) (whole : Bool) :
    List (Field α β) → List (Node α) → Nat → β → Except Fault β
  | [], [], _, record => if whole then .ok record else .error .syntaxError
  | [], _ :: _, _, _ => .error .syntaxError
  | f :: fs, [], index, record =>
    if !whole then .error .syntaxError
    else if f.required then .error (.shape place (.wrongLength index shape.countedTitle))
    else readOrdered shape place whole fs [] (index + 1) record
  | f :: fs, item :: items, index, record => do
    let record ← f.read place (place ++ [.item index]) item record
    readOrdered shape place whole fs items (index + 1) record

/-- Read a record. -/
def read (d : Dialect α) (shape : RecordShape α β) (record place : Place) (n : Node α) :
    Except Fault β := do
  match ← located record place (d.parts shape.title n) with
  | .named entries whole =>
    let (seen, result) ← readNamed d shape place whole entries [] shape.blank
    match shape.fields.find? (fun f => f.required && !seen.contains f.name) with
    | some f => .error (.shape place (.missingField f.name))
    | none => .ok result
  | .ordered items whole => readOrdered shape place whole shape.fields items 0 shape.blank

end RecordShape

/-! ## Fields -/

namespace Dialect

variable {α : Type}

/-- Read each item of a list. -/
def readItems {β : Type} (read : Place → Place → Node α → Except Fault β)
    (record place : Place) (whole : Bool) : List (Node α) → Nat → Except Fault (List β)
  | [], _ => if whole then .ok [] else .error .syntaxError
  | item :: items, index => do
    let first ← read record (place ++ [.item index]) item
    let rest ← readItems read record place whole items (index + 1)
    return first :: rest

/-- Read a list. -/
def readList {β : Type} (d : Dialect α) (read : Place → Place → Node α → Except Fault β)
    (record place : Place) (n : Node α) : Except Fault (List β) := do
  let (items, whole) ← located record place (d.items n)
  readItems read record place whole items 0

/-- Read a value that may be left out. -/
def readOptional {β : Type} (d : Dialect α) (read : Place → Place → Node α → Except Fault β)
    (record place : Place) (n : Node α) : Except Fault (Option β) := do
  if ← located record place (d.isAbsent n) then return none
  else return some (← read record place n)

/-- Read a text. -/
def readText (d : Dialect α) (record place : Place) (n : Node α) : Except Fault String :=
  located record place (d.text n)

/-- Read a flag. -/
def readFlag (d : Dialect α) (record place : Place) (n : Node α) : Except Fault Bool :=
  located record place (d.flag n)

/-- Read one of the allowed words. -/
def readWord {β : Type} (d : Dialect α) (allowed : List String) (ofWord? : String → Option β)
    (record place : Place) (n : Node α) : Except Fault β := do
  let w ← located record place (d.word n)
  match ofWord? w.word with
  | none => .error ((w.unknown (.unknownWord w.word allowed)).fault record place)
  | some value =>
    located record place w.content
    return value

end Dialect

end CommandLauncher.Document
