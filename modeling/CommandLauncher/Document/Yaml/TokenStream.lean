/-
  TOKEN STREAM — the tokens of a YAML text, with the structure that follows from its layout.

  1. **Simple keys** — what is written in front of a colon is a key only because of the colon.
     So the scanner notes, for the block and for every bracket it is in, where a key might have
     started (`KeyPlace`).  When the colon comes, the key token, and perhaps the start of a block
     mapping, is put in at that place.  A simple key has to end on its line and within 1024
     characters.

  2. **Indentation** — `indents` holds the columns of the blocks that are open.  A deeper column
     opens a block, a smaller one closes blocks.  Inside brackets indentation means nothing.

  3. **What has been seen for good** — while a key might still be put in, the tokens from there on
     are not settled.  When the text stops making sense they are lost together with what stopped
     it, and `fault` stands in their place.

  4. **The loop** — each step of `scan` passes at least one character or ends the stream, so as
     many steps as there are characters, and two more, are enough.
-/
import CommandLauncher.Document.Yaml.Token

namespace CommandLauncher.Document.Yaml

/-! ## The scanner's state -/

/-- A place where a simple key might start. -/
structure KeyPlace where
  /-- The number of tokens in front of it. -/
  before : Nat
  index : Nat
  line : Nat
  column : Nat
  /-- Whether nothing but a key can stand there. -/
  required : Bool

structure Scanner where
  cursor : Cursor
  /-- The tokens so far, the last one first. -/
  tokens : List Token := []
  /-- The column of the innermost open block; -1 outside all blocks. -/
  indent : Int := -1
  /-- The columns of the blocks around it. -/
  outer : List Int := []
  /-- The possible keys of the brackets the cursor is in, the innermost first, and last that of
      the block. -/
  keys : List (Option KeyPlace) := [none]
  /-- Whether a simple key may start at the cursor. -/
  keyAllowed : Bool := true
  finished : Bool := false

namespace Scanner

/-- How many tokens there are so far. -/
def count (s : Scanner) : Nat := s.tokens.length

/-- Whether the cursor is inside brackets. -/
def inFlow (s : Scanner) : Bool := s.keys.length > 1

/-- Add a token. -/
def emit (s : Scanner) (t : Token) : Scanner := { s with tokens := t :: s.tokens }

/-- Put a token in behind the first `n` tokens. -/
def insert (s : Scanner) (n : Nat) (t : Token) : Scanner :=
  let later := s.count - n
  { s with tokens := s.tokens.take later ++ t :: s.tokens.drop later }

/-- Pass `n` characters that make up a sign, and add its token. -/
def sign (s : Scanner) (n : Nat) (t : Token) : Scanner :=
  { s.emit t with cursor := s.cursor.advance n }

/-! ## Blocks -/

/-- Open a block at a column that is further in; `start` goes behind the first `n` tokens. -/
def openBlock (s : Scanner) (column : Nat) (n : Nat) (start : Token) : Scanner :=
  if s.inFlow || (column : Int) ≤ s.indent then s
  else { s.insert n start with indent := column, outer := s.indent :: s.outer }

/-- Close the blocks of `indents` that are further in than the column. -/
def closeBlocksFrom (column : Int) (s : Scanner) : List Int → Scanner
  | [] => s
  | i :: outer =>
    if s.indent > column then
      closeBlocksFrom column { s.emit .blockEnd with indent := i, outer := outer } outer
    else s

/-- Close the blocks that are further in than the column. -/
def closeBlocks (column : Int) (s : Scanner) : Scanner :=
  if s.inFlow then s else closeBlocksFrom column s s.outer

/-! ## Simple keys -/

/-- Whether a key can no longer start at its place, now that the cursor is where it is. -/
def KeyPlace.isStale (k : KeyPlace) (c : Cursor) : Bool :=
  k.line < c.line || k.index + 1024 < c.index

/-- Forget the keys that have become impossible, from the block inwards; a required one must not
    be among them. -/
def forgetStale (c : Cursor) : List (Option KeyPlace) → Option (List (Option KeyPlace))
  | [] => some []
  | key :: keys => do
    let keys ← forgetStale c keys
    match key with
    | some k =>
      if KeyPlace.isStale k c then
        if k.required then none else return none :: keys
      else return some k :: keys
    | none => return none :: keys

/-- Forget the keys that have become impossible. -/
def withoutStale (s : Scanner) : Option Scanner :=
  (forgetStale s.cursor s.keys).map fun keys => { s with keys }

/-- Give up the innermost possible key, which must not be a required one. -/
def dropKey (s : Scanner) : Option Scanner :=
  match s.keys with
  | some k :: keys => if k.required then none else some { s with keys := none :: keys }
  | _ => some s

/-- Note that a simple key may start at the cursor, if it may. -/
def noteKey (s : Scanner) : Option Scanner :=
  if !s.keyAllowed then some s
  else do
    let key : KeyPlace :=
      { before := s.count, index := s.cursor.index, line := s.cursor.line,
        column := s.cursor.column,
        required := !s.inFlow && s.indent == (s.cursor.column : Int) }
    let s ← s.dropKey
    return { s with keys := some key :: s.keys.drop 1 }

/-- The number of tokens that no key can be put in front of. -/
def settled (s : Scanner) : Nat :=
  s.keys.foldl (fun n key => match key with | some k => min n k.before | none => n) s.count

/-! ## Between tokens -/

/-- Pass blanks, comments and line breaks.  Outside brackets a simple key may start on a new
    line; where one may start, tabs are no blanks.  A byte order mark in front of the text is a
    blank that takes a column. -/
def passSpace : Nat → Scanner → Scanner
  | 0, s => s
  | fuel + 1, s =>
    let isSpace (ch : Char) : Bool := ch == ' ' || (ch == '\t' && (s.inFlow || !s.keyAllowed))
    let c := s.cursor
    let c := if c.index = 0 && c.rest.head? = some '\ufeff' then c.advance 1 else c
    let c := c.skip isSpace
    let c := if c.rest.head? = some '#' then c.skipLine else c
    if c.rest.head?.any isBreak then
      passSpace fuel
        { s with cursor := c.passBreak.2, keyAllowed := s.keyAllowed || !s.inFlow }
    else { s with cursor := c }

/-! ## One token after another -/

/-- The end of the text. -/
def endStream (s : Scanner) : Option Scanner := do
  let s ← (s.closeBlocks (-1)).dropKey
  return { s.emit .streamEnd with keyAllowed := false, finished := true }

/-- A directive. -/
def takeDirective (s : Scanner) : Option Scanner := do
  let s ← (s.closeBlocks (-1)).dropKey
  let (token, cursor) ← directive? s.cursor
  return { s.emit token with cursor, keyAllowed := false }

/-- A document marker. -/
def takeMarker (s : Scanner) (t : Token) : Option Scanner := do
  let s ← (s.closeBlocks (-1)).dropKey
  return { s.sign 3 t with keyAllowed := false }

/-- An opening bracket or brace. -/
def openFlow (s : Scanner) (t : Token) : Option Scanner := do
  let s ← s.noteKey
  return { s.sign 1 t with keys := none :: s.keys, keyAllowed := true }

/-- A closing bracket or brace. -/
def closeFlow (s : Scanner) (t : Token) : Option Scanner := do
  let s ← s.dropKey
  let keys := if s.inFlow then s.keys.drop 1 else s.keys
  return { s.sign 1 t with keys, keyAllowed := false }

/-- A comma. -/
def takeComma (s : Scanner) : Option Scanner := do
  let s ← s.dropKey
  return { s.sign 1 .comma with keyAllowed := true }

/-- Open the block of the sign at the cursor, which must be allowed to start one. -/
def openBlockHere (s : Scanner) (start : Token) : Option Scanner :=
  if s.inFlow then some s
  else if !s.keyAllowed then none
  else some (s.openBlock s.cursor.column s.count start)

/-- The dash of an item. -/
def takeDash (s : Scanner) : Option Scanner := do
  let s ← s.openBlockHere .blockSequence
  let s ← s.dropKey
  return { s.sign 1 .dash with keyAllowed := true }

/-- The question mark of a key. -/
def takeKey (s : Scanner) : Option Scanner := do
  let s ← s.openBlockHere .blockMapping
  let s ← s.dropKey
  return { s.sign 1 .key with keyAllowed := !s.inFlow }

/-- The colon of a value. -/
def takeValue (s : Scanner) : Option Scanner := do
  match s.keys with
  | some k :: keys =>
    let s := { s.insert k.before .key with keys := none :: keys }
    let s := s.openBlock k.column k.before .blockMapping
    return { s.sign 1 .value with keyAllowed := false }
  | _ =>
    let s ← s.openBlockHere .blockMapping
    return { s.sign 1 .value with keyAllowed := !s.inFlow }

/-- Something that a simple key may start with. -/
def takeContent (s : Scanner) (read : Cursor → Option (Token × Cursor)) : Option Scanner := do
  let s ← s.noteKey
  let (token, cursor) ← read s.cursor
  return { s.emit token with cursor, keyAllowed := false }

/-- A plain scalar; behind one that reached another line a simple key may start. -/
def takePlain (s : Scanner) : Option Scanner := do
  let s ← s.noteKey
  let (text, broken, cursor) ← plainScalar? s.inFlow s.indent s.cursor
  return { s.emit (.scalar text .plain) with cursor, keyAllowed := broken }

/-- A block scalar. -/
def takeBlock (s : Scanner) (literal : Bool) : Option Scanner := do
  let s ← s.dropKey
  let (text, cursor) ← blockScalar? literal s.indent s.cursor
  let style := if literal then Style.literal else Style.folded
  return { s.emit (.scalar text style) with cursor, keyAllowed := true }

/-- The signs that no plain scalar starts with. -/
def isSign (c : Char) : Bool := "-?:,[]\x7b\x7d#&*!|>'\"%@`".toList.contains c

/-- Take the token at the cursor. -/
def take (s : Scanner) : Option Scanner :=
  match s.cursor.rest with
  | [] => s.endStream
  | ch :: rest =>
    if s.cursor.column = 0 && ch == '%' then s.takeDirective
    else if s.cursor.atMarker '-' then s.takeMarker .documentStart
    else if s.cursor.atMarker '.' then s.takeMarker .documentEnd
    else if ch == '[' then s.openFlow .openBracket
    else if ch == '{' then s.openFlow .openBrace
    else if ch == ']' then s.closeFlow .closeBracket
    else if ch == '}' then s.closeFlow .closeBrace
    else if ch == ',' then s.takeComma
    else if ch == '-' && atGap rest then s.takeDash
    else if ch == '?' && (s.inFlow || atGap rest) then s.takeKey
    else if ch == ':' && (s.inFlow || atGap rest) then s.takeValue
    else if ch == '*' then
      s.takeContent fun c => (anchorName? c).map fun (name, c) => (.alias name, c)
    else if ch == '&' then
      s.takeContent fun c => (anchorName? c).map fun (name, c) => (.anchor name, c)
    else if ch == '!' then s.takeContent (tag? s.inFlow)
    else if ch == '|' && !s.inFlow then s.takeBlock true
    else if ch == '>' && !s.inFlow then s.takeBlock false
    else if ch == '\'' then
      s.takeContent fun c =>
        (quotedScalar? true c).map fun (text, c) => (.scalar text .singleQuoted, c)
    else if ch == '"' then
      s.takeContent fun c =>
        (quotedScalar? false c).map fun (text, c) => (.scalar text .doubleQuoted, c)
    else if (!isBlank ch && !isSign ch) || (ch == '-' && !rest.head?.any isBlank) ||
        (!s.inFlow && (ch == '?' || ch == ':') && !atGap rest) then s.takePlain
    else none

/-- Pass what stands between tokens, close the blocks that end there, and take a token. -/
def step (s : Scanner) : Option Scanner := do
  let s := passSpace (s.cursor.rest.length + 1) s
  let s ← s.withoutStale
  (s.closeBlocks s.cursor.column).take

/-- The settled tokens followed by a fault. -/
def brokenAfter (s : Scanner) (n : Nat) : List Token := s.tokens.reverse.take n ++ [.fault]

/-- All tokens; `n` of those so far were settled before. -/
def scan : Nat → Nat → Scanner → List Token
  | 0, n, s => s.brokenAfter n
  | fuel + 1, n, s =>
    if s.finished then s.tokens.reverse
    else
      match s.withoutStale with
      | none => s.brokenAfter n
      | some s =>
        match s.step with
        | none => s.brokenAfter s.settled
        | some next => scan fuel s.settled next

end Scanner

/-- The tokens of a text.  A text with characters that are not allowed makes no sense at all. -/
def tokens (text : String) : List Token :=
  let cs := text.toList
  if cs.all isAllowed then
    Scanner.scan (cs.length + 3) 0 { cursor := Cursor.start cs }
  else [.fault]

/-! ## Running it -/

example : tokens "a: [b]" =
    [.blockMapping, .key, .scalar "a" .plain, .value, .openBracket, .scalar "b" .plain,
      .closeBracket, .blockEnd, .streamEnd] := by decide +kernel
example : tokens "a: [b @" =
    [.blockMapping, .key, .scalar "a" .plain, .value, .openBracket, .scalar "b @" .plain,
      .streamEnd] := by decide +kernel
example : tokens "a: [b, @" =
    [.blockMapping, .key, .scalar "a" .plain, .value, .openBracket, .scalar "b" .plain, .comma,
      .fault] := by decide +kernel

end CommandLauncher.Document.Yaml
