/-
  READING JSON — from tokens to nodes, and what a JSON node can be read as.

  1. **Nodes** — `nodeOf` reads one value from the front of the tokens.  Where the tokens stop
     making sense, the containers that are still open are cut off there.  The fuel only bounds
     the nesting of calls; a list of tokens never needs more than twice its length.

  2. **Documents** — a text is a value and nothing behind it (`sound`).

  3. **The dialect** — a text is a string, a flag one of the two words, and an optional value is
     left out by `null`.  A record may be an object or an array of its fields in order.  A word
     from a closed list is a string, or an object that gives `null` to that word alone.
-/
import CommandLauncher.Document.Json.Amount
import CommandLauncher.Document.Record
import CommandLauncher.Number.Shortest

namespace CommandLauncher.Document.Json

/-- A JSON scalar. -/
inductive Leaf where
  | null
  | flag (b : Bool)
  | number (n : Literal)
  | text (s : String)
  /-- A string that holds half a surrogate pair. -/
  | noText
deriving DecidableEq, Repr, Inhabited

/-- A JSON document as far as it could be read. -/
abbrev Node := Document.Node Leaf

/-- The leaf of a string. -/
def Leaf.ofGlyphs (gs : List Glyph) : Leaf :=
  match decode gs with
  | some cs => .text (String.ofList cs)
  | none => .noText

/-! ## From tokens to nodes -/

mutual
/-- The value at the front, and the tokens behind it. -/
def nodeOf : Nat → List Token → Node × List Token
  | 0, ts => (.broken, ts)
  | fuel + 1, ts =>
    match ts with
    | .null :: rest => (.leaf .null, rest)
    | .flag b :: rest => (.leaf (.flag b), rest)
    | .number n :: rest => (.leaf (.number n), rest)
    | .string gs :: rest => (.leaf (.ofGlyphs gs), rest)
    | .openBracket :: .closeBracket :: rest => (.sequence [] true, rest)
    | .openBracket :: rest =>
      let (items, whole, rest) := itemsOf fuel rest
      (.sequence items whole, rest)
    | .openBrace :: .closeBrace :: rest => (.mapping [] true, rest)
    | .openBrace :: rest =>
      let (entries, whole, rest) := entriesOf fuel rest
      (.mapping entries whole, rest)
    | _ => (.broken, ts)

/-- The items up to the closing bracket; the first one is due. -/
def itemsOf : Nat → List Token → List Node × Bool × List Token
  | 0, ts => ([], false, ts)
  | fuel + 1, ts =>
    let (item, rest) := nodeOf fuel ts
    if !item.isWhole then ([item], false, rest)
    else
      match rest with
      | .closeBracket :: rest => ([item], true, rest)
      | .comma :: rest =>
        match rest with
        | .closeBracket :: _ => ([item], false, rest)
        | _ =>
          let (items, whole, rest) := itemsOf fuel rest
          (item :: items, whole, rest)
      | _ => ([item], false, rest)

/-- The entries up to the closing brace; the first one is due. -/
def entriesOf : Nat → List Token → List (Node × Node) × Bool × List Token
  | 0, ts => ([], false, ts)
  | fuel + 1, ts =>
    let (key, rest) := nodeOf fuel ts
    match rest with
    | .colon :: rest =>
      let (value, rest) := nodeOf fuel rest
      if !value.isWhole then ([(key, value)], false, rest)
      else
        match rest with
        | .closeBrace :: rest => ([(key, value)], true, rest)
        | .comma :: rest =>
          match rest with
          | .closeBrace :: _ => ([(key, value)], false, rest)
          | _ =>
            let (entries, whole, rest) := entriesOf fuel rest
            ((key, value) :: entries, whole, rest)
        | _ => ([(key, value)], false, rest)
    | _ => ([(key, .broken)], false, rest)
end

/-- A text read as a document: its value, and whether nothing stands behind it. -/
structure Reading where
  root : Node
  sound : Bool

/-- Read a text as a document. -/
def Reading.ofTokens (ts : List Token) : Reading :=
  let (root, rest) := nodeOf (2 * ts.length + 2) ts
  { root, sound := rest.isEmpty }

/-- Read a text as a document. -/
def Reading.ofText (s : String) : Reading := ofTokens (tokens s)

/-! ## What a node can be read as -/

/-- What is found in a node, unless that cannot be told. -/
def found : Node → Except Complaint Found
  | .leaf .null => .ok .null
  | .leaf (.flag b) => .ok (.flag b)
  | .leaf (.number l) =>
    match l.amount with
    | .integer i => .ok (.integer i)
    | .decimal x => .ok (.decimal (Number.compact x))
    | .outOfRange => .error .syntaxError
  | .leaf (.text s) => .ok (.text s)
  | .leaf .noText => .error .syntaxError
  | .sequence _ _ => .ok .sequence
  | .mapping _ _ => .ok .mapping
  | .marked _ n => found n
  | .broken => .error .syntaxError

/-- The complaint that a node is not what is expected. -/
def notA {β : Type} (expected : String) (n : Node) : Except Complaint β := do
  let f ← found n
  .error (.here (.wrongType f expected))

/-- The word of a closed list that stands in a node. -/
def wordIn : Node → Except Complaint Word
  | .leaf (.text s) => .ok { word := s, content := .ok (), unknown := .here }
  | .mapping [] _ => .error .syntaxError
  | .mapping ((k, v) :: rest) whole =>
    match k with
    | .leaf (.text s) =>
      .ok {
        word := s
        content :=
          match v with
          | .leaf .null => if rest.isEmpty && whole then .ok () else .error .syntaxError
          | _ => notA "unit" v
        unknown := .here }
    | _ => notA "variant identifier" k
  | _ => .error .syntaxError

/-- What JSON nodes can be read as. -/
def dialect : Dialect Leaf where
  text
    | .leaf (.text s) => .ok s
    | n => notA "a string" n
  flag
    | .leaf (.flag b) => .ok b
    | n => notA "a boolean" n
  isAbsent
    | .leaf .null => .ok true
    | .broken => .error .syntaxError
    | _ => .ok false
  items
    | .sequence items whole => .ok (items, whole)
    | n => notA "a sequence" n
  parts title
    | .mapping entries whole => .ok (.named entries whole)
    | .sequence items whole => .ok (.ordered items whole)
    | n => notA title n
  key
    | .leaf (.text s) => .ok (s, .field s)
    | _ => .error .syntaxError
  word := wordIn

/-- Read a whole text as a record. -/
def readRecord {β : Type} (shape : RecordShape Leaf β) (s : String) : Except Fault β := do
  let reading := Reading.ofText s
  let record ← shape.read dialect [] [] reading.root
  if reading.sound then return record else .error .syntaxError

end CommandLauncher.Document.Json
