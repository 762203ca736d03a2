/-
  CURSOR — a place in a YAML text, with the line and the column it is at.

  YAML's layout depends on columns, and some keys have to end on the line they start on.  So the
  text still to be read is carried together with the number of characters, lines and columns
  passed so far.

  1. **Character classes** — a blank is a space or a tab; a break ends a line.  The next-line
     character and the two Unicode separators are breaks too.

  2. **Passing characters** — `advance` passes characters within a line, `passBreak` passes one
     break and gives its text: a line feed for every kind of break but the Unicode separators,
     which stand for themselves.
-/

namespace CommandLauncher.Document.Yaml

/-! ## Character classes -/

/-- A space or a tab. -/
def isBlank (c : Char) : Bool := c == ' ' || c == '\t'

/-- A character that ends a line. -/
def isBreak (c : Char) : Bool :=
  c == '\n' || c == '\r' || c == '\u0085' || c == '\u2028' || c == '\u2029'

/-- A letter, a digit, an underscore or a hyphen. -/
def isWordChar (c : Char) : Bool := c.isAlphanum || c == '_' || c == '-'

/-- A character that may stand in a YAML text. -/
def isAllowed (c : Char) : Bool :=
  let n := c.toNat
  n == 9 || n == 0xA || n == 0xD || (0x20 ≤ n && n ≤ 0x7E) || n == 0x85 ||
  (0xA0 ≤ n && n ≤ 0xD7FF) || (0xE000 ≤ n && n ≤ 0xFFFD) || 0x10000 ≤ n

/-- Whether the text is at its end or goes on with a character of the class. -/
def startsOrEnds (p : Char → Bool) : List Char → Bool
  | [] => true
  | c :: _ => p c

/-- Whether a blank, a break or the end comes next. -/
def atGap (cs : List Char) : Bool := startsOrEnds (fun c => isBlank c || isBreak c) cs

/-- Whether a break or the end comes next. -/
def atLineEnd (cs : List Char) : Bool := startsOrEnds isBreak cs

/-! ## Cursors -/

/-- The text still to be read, and how far it has been read. -/
structure Cursor where
  rest : List Char
  index : Nat
  line : Nat
  column : Nat
deriving Repr, Inhabited

namespace Cursor

/-- At the start of a text. -/
def start (cs : List Char) : Cursor := { rest := cs, index := 0, line := 0, column := 0 }

/-- Pass `n` characters of a line. -/
def advance (c : Cursor) (n : Nat) : Cursor :=
  { c with rest := c.rest.drop n, index := c.index + n, column := c.column + n }

/-- Pass the characters of a class; what they are, and the place behind them. -/
def span (p : Char → Bool) (c : Cursor) : List Char × Cursor :=
  let taken := c.rest.takeWhile p
  (taken, c.advance taken.length)

/-- Pass the characters of a class. -/
def skip (p : Char → Bool) (c : Cursor) : Cursor := (c.span p).2

/-- Pass the rest of the line, up to its break. -/
def skipLine (c : Cursor) : Cursor := c.skip fun ch => !isBreak ch

/-- Pass one break; its text, and the start of the next line.  At the end nothing happens. -/
def passBreak (c : Cursor) : List Char × Cursor :=
  let next (n : Nat) : Cursor :=
    { rest := c.rest.drop n, index := c.index + n, line := c.line + 1, column := 0 }
  match c.rest with
  | [] => ([], c)
  | '\r' :: '\n' :: _ => (['\n'], next 2)
  | ch :: _ => (if ch = '\u2028' ∨ ch = '\u2029' then [ch] else ['\n'], next 1)

/-- Whether a document marker stands at the cursor: three equal signs at the start of a line. -/
def atMarker (sign : Char) (c : Cursor) : Bool :=
  c.column == 0 &&
    match c.rest with
    | x :: y :: z :: rest => x == sign && y == sign && z == sign && atGap rest
    | _ => false

/-- Whether a document starts or ends at the cursor. -/
def atDocumentMarker (c : Cursor) : Bool := c.atMarker '-' || c.atMarker '.'

end Cursor

end CommandLauncher.Document.Yaml
