/-
  ENTRIES — the two lists of the settings document, each entry known by its key.

  1. **Putting an entry** — `upsert` puts an entry into a list: over the entry at a given
     position, else over the first entry with its key, else at the end.  Every other entry with
     its key is dropped, so the entry's position may move towards the front.

  2. **Catalogs** — a `Catalog` says what the variables and the commands have in common: which
     list of the document it is, what an entry's key is, and how messages call an entry.
-/
import CommandLauncher.Settings

namespace CommandLauncher

/-! ## Putting an entry -/

section Upsert

variable {α : Type}

/-- The position of the first entry with a key. -/
def position? (key : α → String) (k : String) (items : List α) : Option Nat :=
  items.findIdx? fun e => key e = k

/-- The entries without those that have the new key, save the one at `index`. -/
def clearKey (key : α → String) (k : String) : Option Nat → List α → List α
  | none, items => items.filter fun e => key e ≠ k
  | some _, [] => []
  | some 0, e :: items => e :: items.filter fun e => key e ≠ k
  | some (i + 1), e :: items =>
    if key e = k then clearKey key k (some i) items else e :: clearKey key k (some i) items

/-- Where the entry at position `i` stands once the others with the key are dropped. -/
def positionAfterClearing (key : α → String) (k : String) (i : Nat) (items : List α) : Nat :=
  i - ((items.take i).filter fun e => key e = k).length

/-- Put an entry at a position, or over the entry with its key, or at the end. -/
def upsert (key : α → String) (index : Option Nat) (item : α) (items : List α) : List α :=
  let index := index.or (position? key (key item) items)
  let kept := clearKey key (key item) index items
  match index with
  | some i => kept.set (positionAfterClearing key (key item) i items) item
  | none => kept ++ [item]

end Upsert

/-! ## Catalogs -/

/-- The part of the settings that a list belongs to. -/
inductive Part where
  | vars
  | commands
deriving DecidableEq, Repr

/-- One of the lists of the settings document. -/
structure Catalog (α : Type) where
  part : Part
  /-- How an entry is called. -/
  noun : String
  /-- How an entry is called at the start of a sentence. -/
  title : String
  key : α → String
  entries : Settings → List α
  replace : List α → Settings → Settings

namespace Catalog

/-- The variables. -/
def vars : Catalog Variable where
  part := .vars
  noun := "variable"
  title := "Variable"
  key := Variable.name
  entries := Settings.vars
  replace vs s := { s with vars := vs }

/-- The commands. -/
def commands : Catalog Command where
  part := .commands
  noun := "command"
  title := "Command"
  key := Command.title
  entries := Settings.commands
  replace cs s := { s with commands := cs }

/-- The first entry with a key. -/
def find? {α : Type} (c : Catalog α) (k : String) (s : Settings) : Option α :=
  (c.entries s).find? fun e => c.key e = k

end Catalog

/-! ## Running it -/

example : upsert Prod.fst (some 2) ("a", 2) [("a", 1), ("b", 1), ("c", 1)] = [("b", 1), ("a", 2)] := by
  decide +kernel
example : upsert Prod.fst none ("a", 2) [("a", 1), ("b", 1), ("a", 3)] = [("a", 2), ("b", 1)] := by
  decide +kernel
example : upsert Prod.fst none ("b", 1) [("a", 1)] = [("a", 1), ("b", 1)] := by decide +kernel

end CommandLauncher
