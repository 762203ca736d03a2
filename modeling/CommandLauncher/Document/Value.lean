/-
  VALUES — what a document holds: texts, flags, numbers, lists and records.

  Settings, the expansion state and the published schema are written by way of this type, and
  what the schema accepts is said about it.  The fields of a record keep their order.  A number
  is kept as it is written, since no rule of the program looks at its amount.
-/

namespace CommandLauncher.Document

/-- A whole document value. -/
inductive Value where
  | null
  | flag (b : Bool)
  | number (literal : String)
  | text (s : String)
  | list (items : List Value)
  | record (fields : List (String × Value))
deriving Repr, Inhabited

namespace Value

/-- A list of texts. -/
def texts (xs : List String) : Value := .list (xs.map .text)

/-- The first field of the given name. -/
def field? (fields : List (String × Value)) (name : String) : Option Value :=
  (fields.find? (fun f => f.1 = name)).map (·.2)

end Value

end CommandLauncher.Document
