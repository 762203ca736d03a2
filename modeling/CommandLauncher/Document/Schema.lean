/-
  SCHEMAS — what a document may look like, for editors and other readers.

  1. **Schemas** — a schema is said of a value: which kinds it may have, what the items of a list
     and the fields of a record have to satisfy, which single word it has to be, or that exactly
     one of several schemas holds.  A schema may refer to another one by name.  Descriptions and
     defaults say nothing about validity.

  2. **Validity** — `accepts` decides whether a value satisfies a schema, given what the names
     stand for.  A field that a record schema does not mention may hold anything.

  3. **Writing** — `keywords` are the fields of the document that publishes a schema.  A default
     stands behind the first keyword of the schema it belongs to, and the properties of a record
     stand in alphabetical order, in which they have to be given.
-/
import CommandLauncher.Document.Value

namespace CommandLauncher.Document

/-! ## Kinds of values -/

/-- The kinds of values that schemas tell apart. -/
inductive Kind where
  | null
  | boolean
  | string
  | array
  | object
deriving DecidableEq, Repr

/-- The name of a kind in a published schema. -/
def Kind.name : Kind → String
  | null => "null"
  | boolean => "boolean"
  | string => "string"
  | array => "array"
  | object => "object"

/-- Whether a value is of a kind. -/
def Kind.holds : Kind → Value → Bool
  | null, .null => true
  | boolean, .flag _ => true
  | string, .text _ => true
  | array, .list _ => true
  | object, .record _ => true
  | _, _ => false

/-! ## Schemas -/

/-- What is said of a value. -/
inductive Schema where
  /-- The value is of one of the kinds. -/
  | ofKind (kinds : List Kind)
  /-- The value is a list of such items, or of one of the other kinds. -/
  | listOf (item : Schema) (others : List Kind)
  /-- The value is this text. -/
  | word (w : String)
  /-- Exactly one of the schemas holds. -/
  | oneOf (cases : List Schema)
  /-- The value is a record with such fields, of which some are required. -/
  | record (properties : List (String × Schema)) (required : List String)
  /-- What the name stands for. -/
  | reference (name : String)
  /-- A schema with a description. -/
  | described (description : String) (schema : Schema)
  /-- A schema of a field with the value that it has when it is left out. -/
  | withDefault (default : Value) (schema : Schema)
deriving Inhabited

namespace Schema

/-! ## Validity -/

mutual
/-- Whether a value satisfies the schema; `named` decides for the names. -/
def accepts (named : String → Value → Bool) : Schema → Value → Bool
  | ofKind kinds, v => kinds.any fun k => k.holds v
  | listOf item others, v =>
    match v with
    | .list items => items.all fun i => accepts named item i
    | _ => others.any fun k => k.holds v
  | word w, v =>
    match v with
    | .text s => s == w
    | _ => false
  | oneOf cases, v => countAccepting named cases v == 1
  | record properties required, v =>
    match v with
    | .record fields =>
      required.all (fun name => fields.any fun f => f.1 == name) &&
        acceptsFields named properties fields
    | _ => false
  | reference name, v => named name v
  | described _ schema, v => accepts named schema v
  | withDefault _ schema, v => accepts named schema v

/-- How many of the schemas a value satisfies. -/
def countAccepting (named : String → Value → Bool) : List Schema → Value → Nat
  | [], _ => 0
  | s :: ss, v => (if accepts named s v then 1 else 0) + countAccepting named ss v

/-- Whether every field satisfies the schema given for its name. -/
def acceptsFields (named : String → Value → Bool) :
    List (String × Schema) → List (String × Value) → Bool
  | [], _ => true
  | (name, schema) :: rest, fields =>
    (fields.all fun f => f.1 != name || accepts named schema f.2) &&
      acceptsFields named rest fields
end

/-! ## Writing -/

/-- One kind by its name, several as a list. -/
def typeKeyword : List Kind → String × Value
  | [k] => ("type", .text k.name)
  | ks => ("type", .texts (ks.map Kind.name))

/-- The document that describes a definition by its name. -/
def definitionPath (name : String) : String := "#/$defs/" ++ name

mutual
/-- The fields of the document that publishes a schema. -/
def keywords : Schema → List (String × Value)
  | ofKind kinds => [typeKeyword kinds]
  | listOf item others =>
    [typeKeyword (.array :: others), ("items", .record (keywords item))]
  | word w => [("type", .text Kind.string.name), ("const", .text w)]
  | oneOf cases => [("oneOf", .list (keywordsOfAll cases))]
  | record properties required =>
    [("type", .text Kind.object.name), ("properties", .record (keywordsOfFields properties))] ++
      (if required = [] then [] else [("required", .texts required)])
  | reference name => [("$ref", .text (definitionPath name))]
  | described description schema => ("description", .text description) :: keywords schema
  | withDefault default schema =>
    match keywords schema with
    | [] => [("default", default)]
    | k :: ks => k :: ("default", default) :: ks

/-- The documents that publish each of the schemas. -/
def keywordsOfAll : List Schema → List Value
  | [] => []
  | s :: ss => .record (keywords s) :: keywordsOfAll ss

/-- The documents that publish the schemas of fields. -/
def keywordsOfFields : List (String × Schema) → List (String × Value)
  | [] => []
  | (name, s) :: rest => (name, .record (keywords s)) :: keywordsOfFields rest
end

end Schema

/-! ## Schemas of whole documents -/

/-- A schema with a title and with definitions of the names it refers to.  The definitions refer
    to no names. -/
structure DocumentSchema where
  title : String
  description : String
  body : Schema
  definitions : List (String × Schema)

namespace DocumentSchema

/-- What the names stand for. -/
def named (s : DocumentSchema) (name : String) (v : Value) : Bool :=
  match s.definitions.find? (fun d => d.1 = name) with
  | some d => d.2.accepts (fun _ _ => false) v
  | none => false

/-- Whether a document is valid. -/
def accepts (s : DocumentSchema) (v : Value) : Bool := s.body.accepts s.named v

/-- The edition of the schema language, by its address. -/
def edition : String := "https:" ++ "//json-schema.org/" ++ "draft/2020-12/schema"

/-- The document that publishes a schema. -/
def publish (s : DocumentSchema) : Value :=
  .record (
    [("$schema", .text edition), ("title", .text s.title), ("description", .text s.description)] ++
    s.body.keywords ++ [("$defs", .record (Schema.keywordsOfFields s.definitions))])

end DocumentSchema

/-! ## Running it -/

example :
    let s : Schema := .record [("n", .ofKind [.string, .null])] ["n"]
    s.accepts (fun _ _ => false) (.record [("n", .null), ("m", .flag true)]) = true ∧
      s.accepts (fun _ _ => false) (.record [("m", .flag true)]) = false := by decide +kernel

end CommandLauncher.Document
