/-
  SCALARS — the four ways in which YAML writes a text.

  Each function reads one scalar from its first character on and gives its text and the place
  behind it, or nothing where the text is no scalar.  The loops run once for every line; their
  fuel is the number of characters that are left.

  1. **Folding** — in quoted and plain scalars a single line break is a space, and of several
     breaks the first one vanishes (`folded`).  A Unicode separator is never folded away.

  2. **Quoted scalars** — between single quotes only the quote itself is doubled; between double
     quotes a backslash starts an escape or joins two lines.

  3. **Plain scalars** — they end at a comment, at a colon with a gap behind it, inside brackets
     also at a bracket or comma, and at a line that is not indented enough.

  4. **Block scalars** — they consist of the lines that are indented at least as far as the first
     one, or as far as their header says.  The header also says what happens to the breaks at the
     end: one of them stays, or all, or none.
-/
import CommandLauncher.Document.Yaml.Cursor

namespace CommandLauncher.Document.Yaml

/-- How a scalar is written. -/
inductive Style where
  | plain
  | singleQuoted
  | doubleQuoted
  | literal
  | folded
deriving DecidableEq, Repr

/-! ## Blanks and breaks between two pieces of text -/

/-- A gap inside a scalar: the blanks of the first line, or the breaks. -/
structure Gap where
  blanks : List Char
  /-- Whether a break was passed; from then on blanks are indentation. -/
  broken : Bool
  firstBreak : List Char
  laterBreaks : List Char

/-- No gap. -/
def Gap.none : Gap := { blanks := [], broken := false, firstBreak := [], laterBreaks := [] }

/-- What a gap contributes to the text. -/
def Gap.joined (g : Gap) : List Char :=
  if !g.broken then g.blanks
  else if g.firstBreak.head? = some '\n' then
    if g.laterBreaks.isEmpty then [' '] else g.laterBreaks
  else g.firstBreak ++ g.laterBreaks

/-- Pass blanks and breaks; `refuse` tells which blanks of a later line are not accepted. -/
def passGap (refuse : Cursor → Char → Bool) : Nat → Gap → Cursor → Option (Gap × Cursor)
  | 0, g, c => some (g, c)
  | fuel + 1, g, c =>
    match c.rest with
    | [] => some (g, c)
    | ch :: _ =>
      if isBlank ch then
        if g.broken then
          if refuse c ch then Option.none else passGap refuse fuel g (c.advance 1)
        else passGap refuse fuel { g with blanks := g.blanks ++ [ch] } (c.advance 1)
      else if isBreak ch then
        let (text, next) := c.passBreak
        if g.broken then passGap refuse fuel { g with laterBreaks := g.laterBreaks ++ text } next
        else passGap refuse fuel { g with blanks := [], broken := true, firstBreak := text } next
      else some (g, c)

/-! ## Quoted scalars -/

/-- The amount of a hexadecimal digit. -/
def hexValue? (c : Char) : Option Nat :=
  if '0' ≤ c ∧ c ≤ '9' then some (c.toNat - 48)
  else if 'a' ≤ c ∧ c ≤ 'f' then some (c.toNat - 87)
  else if 'A' ≤ c ∧ c ≤ 'F' then some (c.toNat - 55)
  else none

/-- The number written by exactly `n` hexadecimal digits. -/
def hexNumber? (n : Nat) (cs : List Char) : Option Nat :=
  if cs.length < n then none
  else (cs.take n).foldlM (fun acc d => (hexValue? d).map (16 * acc + ·)) 0

/-- The character with a code point, unless there is none. -/
def scalarValue? (n : Nat) : Option Char :=
  if (0xD800 ≤ n ∧ n ≤ 0xDFFF) ∨ 0x10FFFF < n then none else some (Char.ofNat n)

/-- The character that a letter after a backslash stands for. -/
def escape? : Char → Option Char
  | '0' => some '\x00'
  | 'a' => some '\x07'
  | 'b' => some '\x08'
  | 't' => some '\t'
  | '\t' => some '\t'
  | 'n' => some '\n'
  | 'v' => some '\x0b'
  | 'f' => some '\x0c'
  | 'r' => some '\r'
  | 'e' => some '\x1b'
  | ' ' => some ' '
  | '"' => some '"'
  | '/' => some '/'
  | '\\' => some '\\'
  | 'N' => some '\u0085'
  | '_' => some '\u00a0'
  | 'L' => some '\u2028'
  | 'P' => some '\u2029'
  | _ => none

/-- How many digits follow a letter that starts an escape by code point. -/
def escapeLength? : Char → Option Nat
  | 'x' => some 2
  | 'u' => some 4
  | 'U' => some 8
  | _ => none

/-- What stopped a run of characters that are no gap. -/
inductive RunEnd where
  | quote
  | gap
  /-- A backslash before a line break, which has been passed. -/
  | joinedLine

/-- The characters of a quoted scalar up to the closing quote or the next gap. -/
def quotedRun (single : Bool) : Nat → Cursor → Option (List Char × RunEnd × Cursor)
  | 0, _ => none
  | fuel + 1, c =>
    let andThen (x : Char) (n : Nat) : Option (List Char × RunEnd × Cursor) :=
      (quotedRun single fuel (c.advance n)).map fun (text, stop, c) => (x :: text, stop, c)
    match c.rest with
    | [] => some ([], .gap, c)
    | ch :: rest =>
      if isBlank ch || isBreak ch then some ([], .gap, c)
      else if single && ch == '\'' then
        match rest with
        | '\'' :: _ => andThen '\'' 2
        | _ => some ([], .quote, c)
      else if !single && ch == '"' then some ([], .quote, c)
      else if !single && ch == '\\' then
        match rest with
        | [] => none
        | e :: after =>
          if isBreak e then some ([], .joinedLine, (c.advance 1).passBreak.2)
          else
            match escapeLength? e with
            | some n => do
              let value ← hexNumber? n after
              let x ← scalarValue? value
              andThen x (2 + n)
            | none => do
              let x ← escape? e
              andThen x 2
      else andThen ch 1

/-- The lines of a quoted scalar from behind the opening quote on; `text` stands before them. -/
def quotedLines (single : Bool) : Nat → List Char → Cursor → Option (List Char × Cursor)
  | 0, _, _ => none
  | fuel + 1, text, c => do
    if c.atDocumentMarker || c.rest.isEmpty then none
    else
      let (run, stop, c) ← quotedRun single (c.rest.length + 1) c
      let quote := if single then '\'' else '"'
      if c.rest.head? = some quote then return (text ++ run, c.advance 1)
      else
        let gap := match stop with
          | .joinedLine => { Gap.none with broken := true }
          | _ => Gap.none
        let (gap, c) ← passGap (fun _ _ => false) (c.rest.length + 1) gap c
        quotedLines single fuel (text ++ run ++ gap.joined) c

/-- A quoted scalar, from its opening quote on. -/
def quotedScalar? (single : Bool) (c : Cursor) : Option (String × Cursor) :=
  (quotedLines single (c.rest.length + 1) [] (c.advance 1)).map fun (text, c) =>
    (String.ofList text, c)

/-! ## Plain scalars -/

/-- The brackets and the comma, which end a plain scalar inside brackets. -/
def isFlowSign (c : Char) : Bool :=
  c == ',' || c == '[' || c == ']' || c == '{' || c == '}'

/-- The characters of a plain scalar up to its end or the next gap; nothing at all where a colon
    inside brackets is glued to a bracket, comma or question mark. -/
def plainRun (inFlow : Bool) : Nat → Cursor → Option (List Char × Cursor)
  | 0, c => some ([], c)
  | fuel + 1, c =>
    match c.rest with
    | [] => some ([], c)
    | ch :: rest =>
      if isBlank ch || isBreak ch then some ([], c)
      else if inFlow && ch == ':' && (rest.head?.any fun x => isFlowSign x || x == '?') then none
      else if (ch == ':' && atGap rest) || (inFlow && isFlowSign ch) then some ([], c)
      else (plainRun inFlow fuel (c.advance 1)).map fun (text, c) => (ch :: text, c)

/-- The lines of a plain scalar; the text before them, the gap since then, and whether the gap
    at the end reached another line. -/
def plainLines (inFlow : Bool) (indent : Int) :
    Nat → List Char → Gap → Cursor → Option (List Char × Bool × Cursor)
  | 0, text, gap, c => some (text, gap.broken, c)
  | fuel + 1, text, gap, c => do
    if c.atDocumentMarker || c.rest.head? = some '#' then return (text, gap.broken, c)
    else
      let (run, c) ← plainRun inFlow (c.rest.length + 1) c
      let text := if run.isEmpty then text else text ++ gap.joined ++ run
      let gap := if run.isEmpty then gap else Gap.none
      if !(c.rest.head?.any fun ch => isBlank ch || isBreak ch) then
        return (text, gap.broken, c)
      else
        let tooFarLeft (at' : Cursor) (ch : Char) : Bool := (at'.column : Int) < indent && ch == '\t'
        let (gap, c) ← passGap tooFarLeft (c.rest.length + 1) gap c
        if !inFlow && (c.column : Int) < indent then return (text, gap.broken, c)
        else plainLines inFlow indent fuel text gap c

/-- A plain scalar, and whether the cursor came to another line behind it.  Its lines have to be
    indented further than `indent`. -/
def plainScalar? (inFlow : Bool) (indent : Int) (c : Cursor) : Option (String × Bool × Cursor) :=
  (plainLines inFlow (indent + 1) (c.rest.length + 1) [] Gap.none c).map fun (text, broken, c) =>
    (String.ofList text, broken, c)

/-! ## Block scalars -/

/-- What happens to the breaks at the end of a block scalar. -/
inductive Chomping where
  | strip
  | clip
  | keep
deriving DecidableEq, Repr

/-- A chomping sign. -/
def chomping? : Char → Option Chomping
  | '+' => some .keep
  | '-' => some .strip
  | _ => none

/-- The header of a block scalar: its chomping and its indentation, in either order. -/
def blockHeader? (c : Cursor) : Option (Chomping × Option Nat × Cursor) :=
  let digit? (ch : Char) : Option Nat := if ch.isDigit then some (ch.toNat - 48) else none
  match c.rest with
  | [] => some (.clip, none, c)
  | x :: rest =>
    match chomping? x with
    | some chomping =>
      match rest.head?.bind digit? with
      | some 0 => none
      | some n => some (chomping, some n, c.advance 2)
      | none => some (chomping, none, c.advance 1)
    | none =>
      match digit? x with
      | some 0 => none
      | some n =>
        match rest.head?.bind chomping? with
        | some chomping => some (chomping, some n, c.advance 2)
        | none => some (.clip, some n, c.advance 1)
      | none => some (.clip, none, c)

/-- Pass the indentation of a line and the empty lines in front of it; `indent` is the
    indentation to pass, or nothing if all spaces count.  The breaks passed, the greatest column
    reached, and the place behind. -/
def passIndentation (indent : Option Nat) :
    Nat → List Char → Nat → Cursor → Option (List Char × Nat × Cursor)
  | 0, breaks, widest, c => some (breaks, widest, c)
  | fuel + 1, breaks, widest, c =>
    match c.rest with
    | [] => some (breaks, max widest c.column, c)
    | ch :: _ =>
      if indent.all (c.column < ·) && ch == ' ' then
        passIndentation indent fuel breaks widest (c.advance 1)
      else if indent.all (c.column < ·) && ch == '\t' then none
      else if isBreak ch then
        let (text, next) := c.passBreak
        passIndentation indent fuel (breaks ++ text) (max widest c.column) next
      else some (breaks, max widest c.column, c)

/-- A block scalar read so far. -/
structure BlockText where
  text : List Char
  /-- The break behind the last line, not yet part of the text. -/
  lastBreak : List Char
  /-- The empty lines behind it. -/
  emptyLines : List Char
  /-- Whether the last line started with a blank. -/
  indented : Bool

/-- Add a line to a block scalar: in folded scalars, a break between two lines that are not
    indented further is a space. -/
def BlockText.addLine (literal : Bool) (b : BlockText) (line : List Char) : BlockText :=
  let blankFirst := line.head?.any isBlank
  let between :=
    if !literal && b.lastBreak.head? = some '\n' && !b.indented && !blankFirst then
      if b.emptyLines.isEmpty then [' '] else []
    else b.lastBreak
  { text := b.text ++ between ++ b.emptyLines ++ line, lastBreak := [], emptyLines := [],
    indented := blankFirst }

/-- The lines of a block scalar. -/
def blockLines (literal : Bool) (indent : Nat) : Nat → BlockText → Cursor → Option (BlockText × Cursor)
  | 0, b, c => some (b, c)
  | fuel + 1, b, c => do
    if c.column ≠ indent || c.rest.isEmpty then return (b, c)
    else
      let (line, c) := c.span fun ch => !isBreak ch
      let b := b.addLine literal line
      let (lastBreak, c) := c.passBreak
      let (emptyLines, _, c) ← passIndentation (some indent) (c.rest.length + 1) [] 0 c
      blockLines literal indent fuel { b with lastBreak, emptyLines } c

/-- The end of a block scalar. -/
def BlockText.chomp (b : BlockText) : Chomping → List Char
  | .strip => b.text
  | .clip => b.text ++ b.lastBreak
  | .keep => b.text ++ b.lastBreak ++ b.emptyLines

/-- A block scalar, from its first sign on, inside a block that is indented by `parent`. -/
def blockScalar? (literal : Bool) (parent : Int) (c : Cursor) : Option (String × Cursor) := do
  let (chomping, increment, c) ← blockHeader? (c.advance 1)
  let c := c.skip isBlank
  let c := if c.rest.head? = some '#' then c.skipLine else c
  if !atLineEnd c.rest then none
  else
    let c := c.passBreak.2
    let fixed := increment.map fun n => (max parent 0).toNat + n
    let (emptyLines, widest, c) ← passIndentation fixed (c.rest.length + 1) [] 0 c
    let indent := fixed.getD (max widest (max (parent + 1) 1).toNat)
    let empty : BlockText := { text := [], lastBreak := [], emptyLines, indented := false }
    let (b, c) ← blockLines literal indent (c.rest.length + 1) empty c
    return (String.ofList (b.chomp chomping), c)

/-! ## Running it -/

example : (quotedScalar? false (.start "\"a\\n\\x41\n  b\" c".toList)).map (·.1) =
    some "a\nA b" := by decide +kernel
example : (plainScalar? false (-1) (.start "a  b\n\n c: d".toList)).map (·.1) =
    some "a  b\nc" := by decide +kernel
example : (blockScalar? true 0 (.start "|-\n  a\n\n   b\nc".toList)).map (·.1) =
    some "a\n\n b" := by decide +kernel
example : (blockScalar? false 0 (.start ">\n  a\n  b\n\n  c\n".toList)).map (·.1) =
    some "a b\nc\n" := by decide +kernel

end CommandLauncher.Document.Yaml
