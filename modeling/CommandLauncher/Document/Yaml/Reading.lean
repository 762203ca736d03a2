/-
  READING YAML — from tokens to nodes, and what a YAML node can be read as.

  1. **Nodes** — every function below reads what it is named for from the front of the tokens and
     gives it with the rest of them.  Where the tokens stop making sense, the blocks and brackets
     that are still open are cut off there, and nothing is left (`Reader.stop`).  The fuel only
     bounds the nesting of calls.

  2. **Anchors** — an anchored node gets a number when it starts, the number of names known so
     far.  An alias is a leaf with the number of its anchor; the table of numbers tells at the end
     which node that is.  When a number has been given twice, the node that started later counts.

  3. **Documents** — a text is one document and nothing behind it (`sound`).  A text without any
     document is `nothing`.

  4. **The dialect** — every scalar is a text as it is written.  Flags and left-out values are
     plain scalars.  Nothing at all can be taken for an empty list or record.  A word from a
     closed list is a scalar, or a tag on a node that says nothing more.
-/
import CommandLauncher.Document.Record
import CommandLauncher.Document.Yaml.Resolution
import CommandLauncher.Document.Yaml.TokenStream

namespace CommandLauncher.Document.Yaml

/-- What can be told of a node that is no container. -/
inductive Leaf where
  | scalar (text : String) (style : Style)
  | alias (anchor : Nat)
  /-- No document at all. -/
  | nothing
deriving DecidableEq, Repr

/-- A YAML document as far as it could be read; tags are marks. -/
abbrev Node := Document.Node Leaf

/-- A plain scalar that is not written at all. -/
def emptyNode : Node := .leaf (.scalar "" .plain)

/-! ## The reader's state -/

/-- An anchored node: its number, when it started, and what it is. -/
structure Anchored where
  number : Nat
  started : Nat
  node : Node

structure Reader where
  tokens : List Token
  /-- The anchors known so far, the last one first. -/
  names : List (String × Nat) := []
  /-- How many anchored nodes have started. -/
  started : Nat := 0
  table : List Anchored := []
  /-- What the handles of tags stand for. -/
  handles : List (String × String) := [("!", "!"), ("!!", "tag:yaml.org,2002:")]

/-- A step of reading. -/
abbrev ReadM := StateM Reader

namespace Reader

/-- The next token. -/
def peek : ReadM Token := do return (← get).tokens.headD .fault

/-- Pass the next token. -/
def pass : ReadM Unit := modify fun r => { r with tokens := r.tokens.drop 1 }

/-- Give up: nothing that follows makes sense. -/
def stop : ReadM Unit := modify fun r => { r with tokens := [.fault] }

/-- Give up in place of a node. -/
def stopNode : ReadM Node := do stop; return .broken

/-- How many different names are known. -/
def distinctNames (names : List (String × Nat)) : Nat :=
  (names.foldl (fun seen n => if seen.contains n.1 then seen else n.1 :: seen) []).length

/-- Note that an anchored node starts; the number and the time of its start. -/
def startAnchor (name : String) : ReadM (Nat × Nat) := modifyGet fun r =>
  let number := distinctNames r.names
  ((number, r.started), { r with names := (name, number) :: r.names, started := r.started + 1 })

/-- Note what an anchored node is. -/
def finishAnchor (start : Option (Nat × Nat)) (node : Node) : ReadM Node := do
  match start with
  | none => return node
  | some (number, started) =>
    modify fun r => { r with table := { number, started, node } :: r.table }
    return node

/-- The node with a number. -/
def lookUp (table : List Anchored) (number : Nat) : Option Node :=
  let latest := table.foldl
    (fun (best : Option Anchored) a =>
      if a.number ≠ number then best
      else match best with
        | some b => if b.started < a.started then some a else best
        | none => some a) none
  latest.map (·.node)

end Reader

/-! ## Anchors and tags in front of a node -/

/-- What stands in front of a node. -/
structure Properties where
  anchor : Option String := none
  tag : Option String := none

/-- The full form of a tag, where its handle is known. -/
def fullTag? (handles : List (String × String)) (handle rest : String) : Option String :=
  if handle = "" then some rest
  else (handles.find? fun h => h.1 = handle).map fun h => h.2 ++ rest

/-- Read a tag, if there is one.  The answer is its handle and its rest. -/
def readTag : ReadM (Option (String × String)) := do
  match ← Reader.peek with
  | .tag handle rest => Reader.pass; return some (handle, rest)
  | _ => return none

/-- Read an anchor, if there is one. -/
def readAnchor : ReadM (Option String) := do
  match ← Reader.peek with
  | .anchor name => Reader.pass; return some name
  | _ => return none

/-- Read what stands in front of a node, in either order; nothing if a tag's handle is unknown. -/
def readProperties : ReadM (Option Properties) := do
  let first ← readAnchor
  let tag ← readTag
  let anchor ← if first.isSome then pure first else if tag.isSome then readAnchor else pure none
  match tag with
  | none => return some { anchor }
  | some (handle, rest) =>
    match fullTag? (← get).handles handle rest with
    | none => return none
    | some full => return some { anchor, tag := some full }

/-! ## From tokens to nodes -/

/-- Where a missing value may end: the tokens that make it clear that there is none. -/
def endsBlockValue : Token → Bool
  | .key | .value | .blockEnd => true
  | _ => false

/-- The tokens that end an item of a block sequence without content. -/
def endsBlockItem : Token → Bool
  | .dash | .blockEnd => true
  | _ => false

/-- The tokens that end an item without content in a sequence that is not indented. -/
def endsLooseItem : Token → Bool
  | .dash | .key | .value | .blockEnd => true
  | _ => false

/-- The tokens that end a key without content inside braces. -/
def endsFlowKey : Token → Bool
  | .value | .comma | .closeBrace => true
  | _ => false

/-- The tokens that end a value without content inside braces. -/
def endsFlowValue : Token → Bool
  | .comma | .closeBrace => true
  | _ => false

/-- The tokens that end the key of a pair inside brackets. -/
def endsPairKey : Token → Bool
  | .value | .comma | .closeBracket => true
  | _ => false

/-- The tokens that end the value of a pair inside brackets. -/
def endsPairValue : Token → Bool
  | .comma | .closeBracket => true
  | _ => false

/-- A node with its tag, if it has one.  The lone exclamation mark says nothing of a scalar that
    is written out. -/
def withTag (tag : Option String) (node : Node) : Node :=
  match tag, node with
  | none, node => node
  | some t, .leaf (.scalar text style) =>
    if t = "!" && !(text = "" && style = .plain) then node else .marked t node
  | some t, node => .marked t node

mutual
/-- A node.  `block` tells whether blocks may start there, `loose` whether a sequence may start
    without further indentation. -/
def readNode : Nat → Bool → Bool → ReadM Node
  | 0, _, _ => Reader.stopNode
  | fuel + 1, block, loose => do
    match ← Reader.peek with
    | .alias name =>
      Reader.pass
      match (← get).names.find? fun n => n.1 = name with
      | some (_, number) => return .leaf (.alias number)
      | none => Reader.stopNode
    | _ =>
      match ← readProperties with
      | none => Reader.stopNode
      | some properties =>
        let start ← properties.anchor.mapM Reader.startAnchor
        let node ← readContent fuel block loose properties
        Reader.finishAnchor start (withTag properties.tag node)

/-- The content of a node behind its anchor and tag. -/
def readContent : Nat → Bool → Bool → Properties → ReadM Node
  | 0, _, _, _ => Reader.stopNode
  | fuel + 1, block, loose, properties => do
    match ← Reader.peek with
    | .scalar text style =>
      Reader.pass
      return .leaf (.scalar text style)
    | .openBracket =>
      Reader.pass
      let (items, whole) ← readFlowItems fuel true
      return .sequence items whole
    | .openBrace =>
      Reader.pass
      let (entries, whole) ← readFlowEntries fuel true
      return .mapping entries whole
    | .dash =>
      if loose then
        let (items, whole) ← readLooseItems fuel
        return .sequence items whole
      else readBare properties
    | .blockSequence =>
      if block then
        Reader.pass
        let (items, whole) ← readBlockItems fuel
        return .sequence items whole
      else readBare properties
    | .blockMapping =>
      if block then
        Reader.pass
        let (entries, whole) ← readBlockEntries fuel
        return .mapping entries whole
      else readBare properties
    | .fault => Reader.stopNode
    | _ => readBare properties

/-- A node without content, which is one only behind an anchor or a tag. -/
def readBare (properties : Properties) : ReadM Node := do
  if properties.anchor.isSome || properties.tag.isSome then return emptyNode
  else Reader.stopNode

/-- A node, unless one of the given tokens makes it clear that it has no content. -/
def readUnless : Nat → (Token → Bool) → Bool → Bool → ReadM Node
  | 0, _, _, _ => Reader.stopNode
  | fuel + 1, ends, block, loose => do
    if ends (← Reader.peek) then return emptyNode else readNode fuel block loose

/-- The items of a block sequence. -/
def readBlockItems : Nat → ReadM (List Node × Bool)
  | 0 => return ([], false)
  | fuel + 1 => do
    match ← Reader.peek with
    | .dash =>
      Reader.pass
      let item ← readUnless fuel endsBlockItem true false
      if !item.isWhole then return ([item], false)
      else
        let (items, whole) ← readBlockItems fuel
        return (item :: items, whole)
    | .blockEnd => Reader.pass; return ([], true)
    | _ => Reader.stop; return ([], false)

/-- The items of a sequence that is not indented further than the mapping it is a value of. -/
def readLooseItems : Nat → ReadM (List Node × Bool)
  | 0 => return ([], false)
  | fuel + 1 => do
    match ← Reader.peek with
    | .dash =>
      Reader.pass
      let item ← readUnless fuel endsLooseItem true false
      if !item.isWhole then return ([item], false)
      else
        let (items, whole) ← readLooseItems fuel
        return (item :: items, whole)
    | .fault => return ([], false)
    | _ => return ([], true)

/-- The entries of a block mapping. -/
def readBlockEntries : Nat → ReadM (List (Node × Node) × Bool)
  | 0 => return ([], false)
  | fuel + 1 => do
    match ← Reader.peek with
    | .blockEnd => Reader.pass; return ([], true)
    | .key =>
      Reader.pass
      let key ← readUnless fuel endsBlockValue true true
      readBlockValue fuel key
    | _ => Reader.stop; return ([], false)

/-- The value behind a key of a block mapping, and the further entries. -/
def readBlockValue : Nat → Node → ReadM (List (Node × Node) × Bool)
  | 0, key => return ([(key, .broken)], false)
  | fuel + 1, key => do
    if !key.isWhole then return ([(key, .broken)], false)
    else
      let value ← match ← Reader.peek with
        | .value => do Reader.pass; readUnless fuel endsBlockValue true true
        | .fault => Reader.stopNode
        | _ => pure emptyNode
      if !value.isWhole then return ([(key, value)], false)
      else
        let (entries, whole) ← readBlockEntries fuel
        return ((key, value) :: entries, whole)

/-- The items of a sequence in brackets. -/
def readFlowItems : Nat → Bool → ReadM (List Node × Bool)
  | 0, _ => return ([], false)
  | fuel + 1, first => do
    if (← Reader.peek) = .closeBracket then Reader.pass; return ([], true)
    else if !first && (← Reader.peek) ≠ .comma then Reader.stop; return ([], false)
    else
      if !first then Reader.pass
      match ← Reader.peek with
      | .closeBracket => Reader.pass; return ([], true)
      | .key =>
        Reader.pass
        let item ← readPair fuel
        readMoreFlowItems fuel item
      | _ =>
        let item ← readNode fuel false false
        readMoreFlowItems fuel item

/-- An item of a sequence in brackets, and the further ones. -/
def readMoreFlowItems : Nat → Node → ReadM (List Node × Bool)
  | 0, item => return ([item], false)
  | fuel + 1, item => do
    if !item.isWhole then return ([item], false)
    else
      let (items, whole) ← readFlowItems fuel false
      return (item :: items, whole)

/-- A key and its value inside brackets: a mapping with one entry. -/
def readPair : Nat → ReadM Node
  | 0 => Reader.stopNode
  | fuel + 1 => do
    let key ←
      if endsPairKey (← Reader.peek) then
        -- The sign that ends the missing key is used up with it.
        Reader.pass
        pure emptyNode
      else readNode fuel false false
    if !key.isWhole then return .mapping [(key, .broken)] false
    else
      let value ← match ← Reader.peek with
        | .value => do Reader.pass; readUnless fuel endsPairValue false false
        | .fault => Reader.stopNode
        | _ => pure emptyNode
      return .mapping [(key, value)] value.isWhole

/-- The entries of a mapping in braces. -/
def readFlowEntries : Nat → Bool → ReadM (List (Node × Node) × Bool)
  | 0, _ => return ([], false)
  | fuel + 1, first => do
    if (← Reader.peek) = .closeBrace then Reader.pass; return ([], true)
    else if !first && (← Reader.peek) ≠ .comma then Reader.stop; return ([], false)
    else
      if !first then Reader.pass
      match ← Reader.peek with
      | .closeBrace => Reader.pass; return ([], true)
      | .key =>
        Reader.pass
        let key ← readUnless fuel endsFlowKey false false
        readFlowValue fuel key
      | _ =>
        -- A node without colon is a key without value.
        let key ← readNode fuel false false
        if !key.isWhole then return ([(key, .broken)], false)
        else
          let value ← if (← Reader.peek) = .fault then Reader.stopNode else pure emptyNode
          readMoreFlowEntries fuel key value

/-- The value behind a key in braces, and the further entries. -/
def readFlowValue : Nat → Node → ReadM (List (Node × Node) × Bool)
  | 0, key => return ([(key, .broken)], false)
  | fuel + 1, key => do
    if !key.isWhole then return ([(key, .broken)], false)
    else
      let value ← match ← Reader.peek with
        | .value => do Reader.pass; readUnless fuel endsFlowValue false false
        | .fault => Reader.stopNode
        | _ => pure emptyNode
      readMoreFlowEntries fuel key value

/-- An entry in braces, and the further ones. -/
def readMoreFlowEntries : Nat → Node → Node → ReadM (List (Node × Node) × Bool)
  | 0, key, value => return ([(key, value)], false)
  | fuel + 1, key, value => do
    if !value.isWhole then return ([(key, value)], false)
    else
      let (entries, whole) ← readFlowEntries fuel false
      return ((key, value) :: entries, whole)
end

/-! ## Documents -/

/-- A text read as a document: its value, its anchored nodes, and whether nothing stands behind
    it. -/
structure Reading where
  root : Node
  table : List Anchored
  sound : Bool

/-- The directives in front of a document; at most one for the version, which has to be a known
    one, and at most one for each handle.  The answer is whether they are in order. -/
def readDirectives : Nat → Bool → List (String × String) → ReadM Bool
  | 0, _, _ => return false
  | fuel + 1, versionSeen, handles => do
    match ← Reader.peek with
    | .versionDirective major minor =>
      if versionSeen || major ≠ 1 || (minor ≠ 1 && minor ≠ 2) then return false
      else
        Reader.pass
        readDirectives fuel true handles
    | .tagDirective handle meaning =>
      if handles.any (fun h => h.1 = handle) then return false
      else
        Reader.pass
        readDirectives fuel versionSeen (handles ++ [(handle, meaning)])
    | _ =>
      modify fun r => { r with handles := handles ++ r.handles }
      return true

/-- Whether a document that has been started explicitly has no content. -/
def endsDocument : Token → Bool
  | .versionDirective _ _ | .tagDirective _ _ | .documentStart | .documentEnd | .streamEnd => true
  | _ => false

/-- The first document of a text. -/
def readDocument (fuel : Nat) : ReadM Node := do
  match ← Reader.peek with
  | .streamEnd => return .leaf .nothing
  | .versionDirective _ _ | .tagDirective _ _ | .documentStart =>
    if !(← readDirectives fuel false []) then Reader.stopNode
    else if (← Reader.peek) ≠ .documentStart then Reader.stopNode
    else
      Reader.pass
      readUnless fuel endsDocument true false
  | _ => readNode fuel true false

/-- Whether a text ends here, apart from markers for the end of a document. -/
def endsText (ts : List Token) : Bool :=
  ts.dropWhile (· = .documentEnd) == [.streamEnd]

/-- Read a text as a document. -/
def Reading.ofTokens (ts : List Token) : Reading :=
  let (root, reader) := (readDocument (4 * ts.length + 8)).run { tokens := ts }
  { root, table := reader.table, sound := endsText reader.tokens }

/-- Read a text as a document. -/
def Reading.ofText (s : String) : Reading := ofTokens (tokens s)

/-! ## What a node can be read as -/

/-- The node that an alias stands for. -/
def target (table : List Anchored) : Node → Node
  | .leaf (.alias number) => (Reader.lookUp table number).getD .broken
  | n => n

/-- The tag of a node, and the node without it. -/
def untagged (table : List Anchored) (n : Node) : Option String × Node :=
  match target table n with
  | .marked tag node => (some tag, node)
  | node => (none, node)

/-- What a plain scalar without tag is described as. -/
def foundPlain (s : String) : Found :=
  match meaning s with
  | .null => .unit
  | .flag b => .flag b
  | .integer n => if n < Nat.pow 2 64 && -(Nat.pow 2 63) ≤ n then .integer n else .longInteger n
  | .decimal written => .decimal written
  | .text => .text s

/-- The tags of the basic types. -/
def coreTag (name : String) : String := "tag:yaml.org,2002:" ++ name

/-- The complaint that a scalar is not what its tag says. -/
def notTagged {β : Type} (s expected : String) : Except Complaint β :=
  .error (.here (.wrongValue (.text s) expected))

/-- What is found in a scalar. -/
def foundScalar (tag : Option String) (s : String) (style : Style) : Except Complaint Found :=
  match tag with
  | none => .ok (if style = .plain then foundPlain s else .text s)
  | some t =>
    if t = coreTag "bool" then
      match flagWord? s with
      | some b => .ok (.flag b)
      | none => notTagged s "a boolean"
    else if t = coreTag "int" then
      match integer? s with
      | some n => .ok (if n < Nat.pow 2 64 && -(Nat.pow 2 63) ≤ n then .integer n else .longInteger n)
      | none => notTagged s "an integer"
    else if t = coreTag "float" then
      match decimalText? s with
      | some written => .ok (.decimal written)
      | none => notTagged s "a float"
    else if t = coreTag "null" then
      if isNullWord s then .ok .unit else notTagged s "null"
    else if t.toList.head? = some '!' && style = .plain then .ok (foundPlain s)
    else .ok (.text s)

/-- What is found in a node. -/
def found (table : List Anchored) (n : Node) : Except Complaint Found :=
  match untagged table n with
  | (tag, .leaf (.scalar s style)) => foundScalar tag s style
  | (_, .sequence _ _) => .ok .sequence
  | (_, .mapping _ _) => .ok .mapping
  | _ => .error .syntaxError

/-- The complaint that a node is not what is expected. -/
def notA {β : Type} (table : List Anchored) (expected : String) (n : Node) :
    Except Complaint β := do
  let f ← found table n
  .error (.here (.wrongType f expected))

/-- Read any scalar as a text. -/
def textOf (table : List Anchored) (expected : String) (n : Node) : Except Complaint String :=
  match untagged table n with
  | (_, .leaf (.scalar s _)) => .ok s
  | _ => notA table expected n

/-- Read a flag: a plain scalar, or one written as a block with the tag for flags. -/
def flagOf (table : List Anchored) (n : Node) : Except Complaint Bool :=
  match untagged table n with
  | (tag, .leaf (.scalar s style)) =>
    if style = .plain || (style = .literal && tag = some (coreTag "bool")) then
      match flagWord? s with
      | some b => .ok b
      | none => notA table "a boolean" n
    else notA table "a boolean" n
  | _ => notA table "a boolean" n

/-- Whether an optional value is left out: a plain scalar that is empty or a word for no value. -/
def absent (table : List Anchored) (n : Node) : Except Complaint Bool :=
  match untagged table n with
  | (_, .leaf .nothing) => .ok true
  | (_, .broken) => .error .syntaxError
  | (tag, .leaf (.scalar s .plain)) =>
    match tag with
    | none => .ok (s.isEmpty || isNullWord s)
    | some t =>
      if t ≠ coreTag "null" then .ok false
      else if isNullWord s then .ok true
      else .error (.around (.wrongValue (.text s) "null"))
  | _ => .ok false

/-- Whether a node can be taken for an empty container. -/
def isNothing : Node → Bool
  | .leaf (.scalar "" .plain) => true
  | .leaf .nothing => true
  | _ => false

/-- Whether the node behind a tag that is a word says nothing more. -/
def wordContent (table : List Anchored) (n : Node) : Except Complaint Unit :=
  match (untagged table n).2 with
  | .leaf (.scalar s style) =>
    if style = .plain && (s.isEmpty || isNullWord s) then .ok ()
    else notTagged s "null"
  | .sequence _ _ => .error (.here (.wrongType .sequence "unit"))
  | .mapping _ _ => .error (.here (.wrongType .mapping "unit"))
  | _ => .error .syntaxError

/-- The word of a closed list: a tag of the document's own, or a scalar. -/
def wordOf (table : List Anchored) (n : Node) : Except Complaint Word :=
  let needsTag (f : Found) : Except Complaint Word :=
    .error (.here (.wrongType f "a YAML tag starting with '!'"))
  match untagged table n with
  | (_, .broken) => .error .syntaxError
  | (_, .leaf .nothing) => .error .syntaxError
  | (tag, node) =>
    match tag.map String.toList with
    | some ('!' :: word) =>
      -- The lone exclamation mark is a word of its own.
      let word := if word.isEmpty then ['!'] else word
      .ok { word := String.ofList word, content := wordContent table n, unknown := .around }
    | _ =>
      match node with
      | .sequence _ _ => needsTag .sequence
      | .mapping _ _ => needsTag .mapping
      | _ => do
        let s ← textOf table "variant identifier" n
        return { word := s, content := .ok (), unknown := .here }

/-- What YAML nodes can be read as. -/
def dialect (table : List Anchored) : Dialect Leaf where
  text := textOf table "a string"
  flag := flagOf table
  isAbsent := absent table
  items n :=
    match (untagged table n).2 with
    | .sequence items whole => .ok (items, whole)
    | node => if isNothing node then .ok ([], true) else notA table "a sequence" n
  parts title n :=
    match (untagged table n).2 with
    | .mapping entries whole => .ok (.named entries whole)
    | node => if isNothing node then .ok (.named [] true) else notA table title n
  key n := do
    let name ← textOf table "field identifier" n
    match n with
    | .leaf (.alias _) => return (name, .unnamed)
    | _ => return (name, .field name)
  word := wordOf table

/-- Read a whole text as a record. -/
def readRecord {β : Type} (shape : Dialect Leaf → RecordShape Leaf β) (s : String) :
    Except Fault β := do
  let reading := Reading.ofText s
  let d := dialect reading.table
  let record ← (shape d).read d [] [] reading.root
  if reading.sound then return record else .error .syntaxError

end CommandLauncher.Document.Yaml
