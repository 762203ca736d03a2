/-
  PRINTING JSON — values as indented text.

  1. **Strings** — quotes, backslashes and control characters are escaped; everything else is
     written as it is.

  2. **Layout** — every item and every field stands on a line of its own, two spaces further in
     than its container.  An empty container is written as its two brackets.
-/
import CommandLauncher.Document.Json.Token
import CommandLauncher.Document.Value

namespace CommandLauncher.Document

namespace Json

/-- A hexadecimal digit. -/
def hexDigit (n : Nat) : Char := Char.ofNat (if n < 10 then 48 + n else 87 + n)

/-- A character inside a string. -/
def escaped (c : Char) : List Char :=
  if c = '"' then ['\\', '"']
  else if c = '\\' then ['\\', '\\']
  else if c.toNat < 0x20 then
    if c = '\x08' then ['\\', 'b']
    else if c = '\x0c' then ['\\', 'f']
    else if c = '\n' then ['\\', 'n']
    else if c = '\r' then ['\\', 'r']
    else if c = '\t' then ['\\', 't']
    else ['\\', 'u', '0', '0', hexDigit (c.toNat / 16), hexDigit (c.toNat % 16)]
  else [c]

/-- A string with its quotes. -/
def stringText (s : String) : List Char := '"' :: s.toList.flatMap escaped ++ ['"']

/-- The start of a line, `depth` levels in. -/
def newLine (depth : Nat) : List Char := '\n' :: List.replicate (2 * depth) ' '

end Json

namespace Value

open Json

mutual
/-- The indented text of a value inside `depth` containers. -/
def print (depth : Nat) : Value → List Char
  | null => "null".toList
  | flag b => (if b then "true" else "false").toList
  | number literal => literal.toList
  | text s => stringText s
  | list [] => ['[', ']']
  | list (v :: vs) =>
    '[' :: newLine (depth + 1) ++ print (depth + 1) v ++ printItems (depth + 1) vs ++
      newLine depth ++ [']']
  | record [] => ['{', '}']
  | record (f :: fs) =>
    '{' :: newLine (depth + 1) ++ printField (depth + 1) f ++ printFields (depth + 1) fs ++
      newLine depth ++ ['}']

/-- The further items of a list, each behind a comma on a line of its own. -/
def printItems (depth : Nat) : List Value → List Char
  | [] => []
  | v :: vs => ',' :: newLine depth ++ print depth v ++ printItems depth vs

/-- A field with its name. -/
def printField (depth : Nat) : String × Value → List Char
  | (name, v) => stringText name ++ [':', ' '] ++ print depth v

/-- The further fields of a record, each behind a comma on a line of its own. -/
def printFields (depth : Nat) : List (String × Value) → List Char
  | [] => []
  | f :: fs => ',' :: newLine depth ++ printField depth f ++ printFields depth fs
end

/-- A value as indented JSON. -/
def toJson (v : Value) : String := String.ofList (print 0 v)

end Value

/-! ## Running it -/

example : (Value.record [("a", .list []), ("b", .texts ["x\n"])]).toJson =
    "\x7b\n  \"a\": [],\n  \"b\": [\n    \"x\\n\"\n  ]\n\x7d" := by decide +kernel

end CommandLauncher.Document
