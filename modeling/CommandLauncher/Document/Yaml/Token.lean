/-
  YAML TOKENS — what a YAML text consists of, and the tokens that are read sign by sign.

  1. **Tokens** — signs, scalars, anchors, tags, directives, and the starts and ends of blocks,
     which are not written but follow from indentation.  `fault` stands where the text stops
     making sense.

  2. **Single tokens** — the functions below read an anchor, an alias, a tag or a directive from
     its sign on.  They give nothing where the text is malformed.
-/
import CommandLauncher.Document.Yaml.Scalar

namespace CommandLauncher.Document.Yaml

inductive Token where
  | streamEnd
  | versionDirective (major minor : Nat)
  /-- A handle for tags, and what it stands for. -/
  | tagDirective (handle meaning : String)
  | documentStart
  | documentEnd
  | blockSequence
  | blockMapping
  | blockEnd
  | openBracket
  | closeBracket
  | openBrace
  | closeBrace
  | dash
  | comma
  | key
  | value
  | alias (name : String)
  | anchor (name : String)
  | tag (handle rest : String)
  | scalar (text : String) (style : Style)
  | fault
deriving DecidableEq, Repr

/-! ## Anchors and aliases -/

/-- The name behind the sign of an anchor or alias. -/
def anchorName? (c : Cursor) : Option (String × Cursor) :=
  let (name, c) := (c.advance 1).span isWordChar
  let mayFollow (ch : Char) : Bool :=
    isBlank ch || isBreak ch || "?:,]\x7d%@`".toList.contains ch
  if name.isEmpty || !startsOrEnds mayFollow c.rest then none
  else some (String.ofList name, c)

/-! ## Tags -/

/-- The handle of a tag: an exclamation mark, and perhaps word characters and another one.  In a
    directive it has to be complete. -/
def tagHandle? (directive : Bool) (c : Cursor) : Option (List Char × Cursor) :=
  match c.rest with
  | '!' :: _ =>
    let (word, c) := (c.advance 1).span isWordChar
    match c.rest with
    | '!' :: _ => some ('!' :: word ++ ['!'], c.advance 1)
    | _ => if directive && !word.isEmpty then none else some ('!' :: word, c)
  | _ => none

/-- Whether a character may stand in a tag; brackets and commas only in complete ones. -/
def isTagChar (complete : Bool) (c : Char) : Bool :=
  isWordChar c || ";/?:@&=+$.!~*'()".toList.contains c || (complete && ",[]".toList.contains c)

/-- The number of bytes announced by the first byte of a character in UTF-8. -/
def utf8Length? (byte : Nat) : Option Nat :=
  if byte < 0x80 then some 1
  else if 0xC0 ≤ byte ∧ byte < 0xE0 then some 2
  else if 0xE0 ≤ byte ∧ byte < 0xF0 then some 3
  else if 0xF0 ≤ byte ∧ byte < 0xF8 then some 4
  else none

/-- A byte written as `%` and two hexadecimal digits. -/
def escapedByte? : List Char → Option (Nat × List Char)
  | '%' :: a :: b :: rest => do
    let a ← hexValue? a
    let b ← hexValue? b
    return (16 * a + b, rest)
  | _ => none

/-- Further bytes of a character, six bits each. -/
def escapedTail? : Nat → Nat → List Char → Option (Nat × List Char)
  | 0, n, cs => some (n, cs)
  | more + 1, n, cs => do
    let (byte, cs) ← escapedByte? cs
    if byte < 0x80 ∨ 0xC0 ≤ byte then none else escapedTail? more (64 * n + (byte - 0x80)) cs

/-- A character written byte by byte, and how many bytes it took. -/
def escapedChar? (cs : List Char) : Option (Char × Nat) := do
  let (byte, cs) ← escapedByte? cs
  let length ← utf8Length? byte
  let first := if length = 1 then byte else byte % Nat.pow 2 (7 - length)
  let (n, _) ← escapedTail? (length - 1) first cs
  let c ← scalarValue? n
  return (c, length)

/-- The characters of a tag. -/
def tagText? (complete : Bool) : Nat → Cursor → Option (List Char × Cursor)
  | 0, c => some ([], c)
  | fuel + 1, c =>
    match c.rest with
    | [] => some ([], c)
    | ch :: _ =>
      if ch = '%' then do
        let (x, bytes) ← escapedChar? c.rest
        let (text, c) ← tagText? complete fuel (c.advance (3 * bytes))
        return (x :: text, c)
      else if isTagChar complete ch then do
        let (text, c) ← tagText? complete fuel (c.advance 1)
        return (ch :: text, c)
      else some ([], c)

/-- The characters of a tag; there has to be one at least, in `before` or here. -/
def tagRest? (complete : Bool) (before : List Char) (c : Cursor) : Option (List Char × Cursor) := do
  let (text, c) ← tagText? complete (c.rest.length + 1) c
  if before.isEmpty && text.isEmpty then none else return (before.drop 1 ++ text, c)

/-- A tag, without a look at what follows it. -/
def tagBody? (c : Cursor) : Option (Token × Cursor) :=
  match c.rest with
  | '!' :: '<' :: _ => do
    let (text, c) ← tagRest? true [] (c.advance 2)
    if c.rest.head? = some '>' then return (.tag "" (String.ofList text), c.advance 1) else none
  | _ => do
    let (handle, c) ← tagHandle? false c
    if handle.length > 1 && handle.getLast? = some '!' then
      let (text, c) ← tagRest? false [] c
      return (.tag (String.ofList handle) (String.ofList text), c)
    else
      let (text, c) ← tagRest? false handle c
      -- The lone exclamation mark is a tag of its own.
      if text.isEmpty then return (.tag "" "!", c)
      else return (.tag "!" (String.ofList text), c)

/-- A tag, from its exclamation mark on. -/
def tag? (inFlow : Bool) (c : Cursor) : Option (Token × Cursor) := do
  let (token, c) ← tagBody? c
  if atGap c.rest || (inFlow && c.rest.head? = some ',') then return (token, c) else none

/-! ## Directives -/

/-- A number of at most nine digits. -/
def versionNumber? (c : Cursor) : Option (Nat × Cursor) :=
  let (ds, c) := c.span Char.isDigit
  if ds.isEmpty || ds.length > 9 then none
  else some (ds.foldl (fun n d => 10 * n + (d.toNat - 48)) 0, c)

/-- The content of a version directive. -/
def versionDirective? (c : Cursor) : Option (Token × Cursor) := do
  let (major, c) ← versionNumber? c
  if c.rest.head? ≠ some '.' then none
  else
    let (minor, c) ← versionNumber? (c.advance 1)
    return (.versionDirective major minor, c)

/-- The content of a tag directive. -/
def tagDirective? (c : Cursor) : Option (Token × Cursor) := do
  let (handle, c) ← tagHandle? true c
  if !(c.rest.head?.any isBlank) then none
  else
    let (meaning, c) ← tagText? true (c.rest.length + 1) (c.skip isBlank)
    if meaning.isEmpty || !atGap c.rest then none
    else return (.tagDirective (String.ofList handle) (String.ofList meaning), c)

/-- A directive, from its percent sign to the end of its line. -/
def directive? (c : Cursor) : Option (Token × Cursor) := do
  let (name, c) := (c.advance 1).span isWordChar
  if name.isEmpty || !atGap c.rest then none
  else
    let c := c.skip isBlank
    let (token, c) ←
      if name = ['Y', 'A', 'M', 'L'] then versionDirective? c
      else if name = ['T', 'A', 'G'] then tagDirective? c
      else none
    let c := c.skip isBlank
    let c := if c.rest.head? = some '#' then c.skipLine else c
    if atLineEnd c.rest then return (token, c.passBreak.2) else none

/-! ## Running it -/

example : (tag? false (.start "!!str x".toList)).map (·.1) = some (.tag "!!" "str") := by
  decide +kernel
example : (directive? (.start "%YAML 1.2\n".toList)).map (·.1) =
    some (.versionDirective 1 2) := by decide +kernel

end CommandLauncher.Document.Yaml
