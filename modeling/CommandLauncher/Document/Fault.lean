/-
  FAULTS — why a document cannot be taken for what it should be.

  1. **Causes** — a text may not be a document of its format at all (`syntaxError`), or it has
     the wrong shape somewhere: a value of another type than expected, a list of the wrong
     length, an unknown word, a missing field or one that is given twice.

  2. **Places** — a wrong shape is reported with the steps that lead to it.  Only the messages of
     one format mention them; `Place.text` writes them as that format does.

  3. **Wording** — `Problem.message` is the one place where the wording is decided.
-/
import CommandLauncher.Text.Parts
import CommandLauncher.Text.Quoted

namespace CommandLauncher.Document

/-! ## Places in a document -/

/-- A step from a value to a part of it. -/
inductive Step where
  | field (name : String)
  /-- The value of a field whose name is not written in its place. -/
  | unnamed
  | item (index : Nat)
deriving DecidableEq, Repr

/-- The steps from the whole document to a part of it. -/
abbrev Place := List Step

/-- The written form of the steps after the ones written as `before`. -/
def Place.textAfter (before : String) : Place → String
  | [] => before
  | .field name :: rest => textAfter (if before = "" then name else before ++ "." ++ name) rest
  | .unnamed :: rest => textAfter (if before = "" then "?" else before ++ ".?") rest
  | .item index :: rest => textAfter (before ++ "[" ++ toString index ++ "]") rest

/-- How the steps are written, such as `commands[0].title`. -/
def Place.text (place : Place) : String := textAfter "" place

/-! ## What went wrong -/

/-- What was found where something else was expected. -/
inductive Found where
  | flag (b : Bool)
  | integer (n : Int)
  | longInteger (n : Int)
  | decimal (written : String)
  | text (s : String)
  | null
  | unit
  | sequence
  | mapping
deriving DecidableEq, Repr

/-- How a thing found is described. -/
def Found.describe : Found → String
  | flag b => "boolean `" ++ (if b then "true" else "false") ++ "`"
  | integer n => "integer `" ++ toString n ++ "`"
  | longInteger n =>
    "integer `" ++ toString n ++ (if n < 0 then "` as i128" else "` as u128")
  | decimal written => "floating point `" ++ written ++ "`"
  | text s => "string " ++ Text.quoted s
  | null => "null"
  | unit => "unit value"
  | sequence => "sequence"
  | mapping => "map"

/-- A wrong shape. -/
inductive Problem where
  | wrongType (found : Found) (expected : String)
  | wrongValue (found : Found) (expected : String)
  | wrongLength (length : Nat) (expected : String)
  | unknownWord (word : String) (allowed : List String)
  | missingField (name : String)
  | repeatedField (name : String)
deriving DecidableEq, Repr

/-- Words in backquotes, with `or` between two and commas between more. -/
def oneOf : List String → String
  | [a, b] => "`" ++ a ++ "` or `" ++ b ++ "`"
  | words => Text.join ", " (words.map fun w => "`" ++ w ++ "`")

/-- The wording of a wrong shape. -/
def Problem.message : Problem → String
  | wrongType found expected => "invalid type: " ++ found.describe ++ ", expected " ++ expected
  | wrongValue found expected => "invalid value: " ++ found.describe ++ ", expected " ++ expected
  | wrongLength length expected =>
    "invalid length " ++ toString length ++ ", expected " ++ expected
  | unknownWord word allowed => "unknown variant `" ++ word ++ "`, expected " ++ oneOf allowed
  | missingField name => "missing field `" ++ name ++ "`"
  | repeatedField name => "duplicate field `" ++ name ++ "`"

/-- Why a document could not be read. -/
inductive Fault where
  | syntaxError
  | shape (place : Place) (problem : Problem)
deriving DecidableEq, Repr

/-! ## Running it -/

example : Place.text [.field "commands", .item 0, .field "title"] = "commands[0].title" := by
  decide +kernel
example : (Problem.wrongType (.integer 5) "a string").message =
    "invalid type: integer `5`, expected a string" := by decide +kernel

end CommandLauncher.Document
