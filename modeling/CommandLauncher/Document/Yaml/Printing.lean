/-
  PRINTING YAML — values as block-style text.

  1. **Styles** — a text is written in the plainest style that reads back as the same text.
     With line feeds in it that is the literal style; without, the plain one, unless the text
     would be taken for something else than a text or for a part of the layout; then single
     quotes, and double quotes for what single quotes cannot hold.

  2. **Literal texts** — the lines stand below their key, further in.  The header says how many
     line feeds end the text: `-` for none, nothing for one, `+` for several.  A text that starts
     with a space or a break also gets its indentation into the header.

  3. **Layout** — a list stands below its key without further indentation, and a record inside a
     list starts on the line of its dash.
-/
import CommandLauncher.Document.Value
import CommandLauncher.Document.Yaml.Resolution
import CommandLauncher.Document.Yaml.Scalar

namespace CommandLauncher.Document

namespace Yaml

/-! ## Properties of a text that decide its style -/

/-- A character that can be written as it is. -/
def isPrintable (c : Char) : Bool :=
  let n := c.toNat
  n == 0xA || (0x20 ≤ n && n ≤ 0x7E) || (0xA0 ≤ n && n ≤ 0xD7FF) ||
  (0xE000 ≤ n && n ≤ 0xFFFD && n != 0xFEFF) || 0x10000 ≤ n

/-- Whether a character of class `p` is followed at once by one of class `q`. -/
def hasPair (p q : Char → Bool) : List Char → Bool
  | c :: d :: cs => (p c && q d) || hasPair p q (d :: cs)
  | _ => false

/-- A space or a break. -/
def isEdge (c : Char) : Bool := c == ' ' || isBreak c

/-- Whether a text starts or ends with a space or a break. -/
def hasEdge (cs : List Char) : Bool := cs.head?.any isEdge || cs.getLast?.any isEdge

/-- A character that cannot start a plain text. -/
def isOpening (c : Char) : Bool := "#,[]\x7b\x7d&*!|>'\"%@`".toList.contains c

/-- Whether the first character has a meaning of its own there. -/
def startsAsSign : List Char → Bool
  | [] => false
  | c :: cs => isOpening c || ((c == '?' || c == ':' || c == '-') && atGap cs)

/-- Whether the text starts like the border of a document. -/
def startsAsBorder (cs : List Char) : Bool := "---".toList.isPrefixOf cs || "...".toList.isPrefixOf cs

/-- Whether a colon ends a word or a number sign starts one. -/
def hasInnerSign : List Char → Bool
  | [] => false
  | c :: cs =>
    ((isBlank c || isBreak c) && cs.head? == some '#') || (cs.head? == some ':' && atGap (cs.drop 1)) ||
      hasInnerSign cs

/-- Whether nothing in the text belongs to the layout. -/
def isLayoutFree (cs : List Char) : Bool :=
  !(startsAsBorder cs || startsAsSign cs || hasInnerSign cs || hasEdge cs || cs.any isBreak)

/-- Whether every character can be written as it is and no line ends with a space. -/
def isWritable (cs : List Char) : Bool :=
  cs.all isPrintable && !hasPair (· == ' ') isBreak cs

/-- The style in which a text is written. -/
def styleOf (s : String) : Style :=
  let cs := s.toList
  if cs.contains '\n' then
    if isWritable cs && cs.getLast? != some ' ' then .literal else .doubleQuoted
  else if isPlainText s && isWritable cs && isLayoutFree cs then .plain
  else if isWritable cs && !hasPair isBreak (· == ' ') cs then .singleQuoted
  else .doubleQuoted

/-! ## Writing a text -/

/-- So many spaces. -/
def spaces (n : Nat) : List Char := List.replicate n ' '

/-- A number in upper-case hexadecimal digits, filled up with zeros. -/
def hexPadded (width n : Nat) : List Char :=
  let digits := (Nat.toDigits 16 n).map Char.toUpper
  List.replicate (width - digits.length) '0' ++ digits

/-- The letter of the short escapes. -/
def escapeLetter? (c : Char) : Option Char :=
  match c with
  | '\x00' => some '0'
  | '\x07' => some 'a'
  | '\x08' => some 'b'
  | '\t' => some 't'
  | '\n' => some 'n'
  | '\x0b' => some 'v'
  | '\x0c' => some 'f'
  | '\r' => some 'r'
  | '\x1b' => some 'e'
  | '"' => some '"'
  | '\\' => some '\\'
  | '\u0085' => some 'N'
  | '\u2028' => some 'L'
  | '\u2029' => some 'P'
  | _ => none

/-- A character between double quotes. -/
def doubleQuotedChar (c : Char) : List Char :=
  match escapeLetter? c with
  | some letter => ['\\', letter]
  | none =>
    if isPrintable c then [c]
    else if c.toNat ≤ 0xFF then '\\' :: 'x' :: hexPadded 2 c.toNat
    else if c.toNat ≤ 0xFFFF then '\\' :: 'u' :: hexPadded 4 c.toNat
    else '\\' :: 'U' :: hexPadded 8 c.toNat

/-- The inside of single quotes; a line after a break is indented. -/
def singleQuotedChars (indent : Nat) : List Char → List Char
  | [] => []
  | c :: cs =>
    let written := if c == '\'' then ['\'', '\''] else [c]
    if isBreak c && !(cs.head?.any isBreak) then
      written ++ spaces indent ++ singleQuotedChars indent cs
    else written ++ singleQuotedChars indent cs

/-- The lines of a literal text; `fresh` says whether a line is about to start. -/
def literalChars (indent : Nat) : Bool → List Char → List Char
  | _, [] => []
  | fresh, c :: cs =>
    if isBreak c then c :: literalChars indent true cs
    else (if fresh then spaces indent else []) ++ c :: literalChars indent false cs

/-- What the header of a literal text says about its end. -/
def chompingSign (cs : List Char) : List Char :=
  match cs.reverse with
  | [] => ['-']
  | [c] => if isBreak c then ['+'] else ['-']
  | c :: d :: _ => if isBreak c then (if isBreak d then ['+'] else []) else ['-']

/-- The header of a literal text. -/
def literalHeader (cs : List Char) : List Char :=
  '|' :: (if cs.head?.any isEdge then ['2'] else []) ++ chompingSign cs

/-- A text in its style; the lines after the first stand `indent` columns in. -/
def textChars (indent : Nat) (s : String) : List Char :=
  match styleOf s with
  | .literal => literalHeader s.toList ++ '\n' :: literalChars indent true s.toList
  | .singleQuoted => '\'' :: singleQuotedChars indent s.toList ++ ['\'']
  | .doubleQuoted => '"' :: s.toList.flatMap doubleQuotedChar ++ ['"']
  | _ => s.toList

/-- End a line, unless a literal text has just ended it by a break of its own. -/
def endLine (cs : List Char) : List Char := if cs.getLast?.any isBreak then cs else cs ++ ['\n']

end Yaml

namespace Value

open Yaml

mutual
/-- The lines of a value that stands behind a dash `indent` columns in. -/
def blockItem (indent : Nat) : Value → List Char
  | null => "null\n".toList
  | flag b => (if b then "true\n" else "false\n").toList
  | number literal => literal.toList ++ ['\n']
  | text s => endLine (textChars indent s)
  | list [] => "[]\n".toList
  | list (v :: vs) => '-' :: ' ' :: blockItem (indent + 2) v ++ blockItems indent vs
  | record [] => "\x7b\x7d\n".toList
  | record (f :: fs) => blockField indent f ++ blockFields indent fs

/-- The lines of list items, each with its dash `indent` columns in. -/
def blockItems (indent : Nat) : List Value → List Char
  | [] => []
  | v :: vs => spaces indent ++ '-' :: ' ' :: blockItem (indent + 2) v ++ blockItems indent vs

/-- The lines of a field, from its name on. -/
def blockField (indent : Nat) : String × Value → List Char
  | (name, v) => name.toList ++ ':' :: blockValue indent v

/-- The lines of fields, each `indent` columns in. -/
def blockFields (indent : Nat) : List (String × Value) → List Char
  | [] => []
  | f :: fs => spaces indent ++ blockField indent f ++ blockFields indent fs

/-- What follows the colon of a field that is `indent` columns in. -/
def blockValue (indent : Nat) : Value → List Char
  | list (v :: vs) =>
    '\n' :: spaces indent ++ '-' :: ' ' :: blockItem (indent + 2) v ++ blockItems indent vs
  | record (f :: fs) =>
    '\n' :: spaces (indent + 2) ++ blockField (indent + 2) f ++ blockFields (indent + 2) fs
  | null => " null\n".toList
  | flag b => (if b then " true\n" else " false\n").toList
  | number literal => ' ' :: literal.toList ++ ['\n']
  | text s => ' ' :: endLine (textChars (indent + 2) s)
  | list [] => " []\n".toList
  | record [] => " \x7b\x7d\n".toList
end

/-- A value as YAML. -/
def toYaml (v : Value) : String := String.ofList (blockItem 0 v)

end Value

/-! ## Running it -/

example : (["a b", "", "true", "a: b", "- x", "-x", "it's", " a", "a\nb", "a \nb", "\t", "x\u2028y"].map
    Yaml.styleOf) = [.plain, .singleQuoted, .singleQuoted, .singleQuoted, .singleQuoted, .plain,
      .plain, .singleQuoted, .literal, .doubleQuoted, .doubleQuoted, .singleQuoted] := by
  decide +kernel
example :
    (Value.record [("a", .texts ["x\ny"]), ("b", .list []),
      ("c", .list [.record [("d", .text "1"), ("e", .texts ["f"])]])]).toYaml =
      "a:\n- |-\n  x\n  y\nb: []\nc:\n- d: '1'\n  e:\n  - f\n" := by decide +kernel

end CommandLauncher.Document
