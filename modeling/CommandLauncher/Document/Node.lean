/-
  NODES — a document read as far as it makes sense.

  A reader of settings goes through a document from front to back and stops at the first thing
  it cannot accept.  If the text breaks off, or stops being a document of its format, everything
  before that point has still been seen, and a wrong shape found there is what the user is told.
  So a text is not read into a value or an error, but into a node in which the break stays
  visible.

  1. **Leaves and marks** — each format has its own leaves `α`: what it can say about a single
     scalar.  A node may have a mark, a word that some formats put in front of it.

  2. **Whole and broken** — a sequence or mapping says whether its end was reached.  A break
     inside a container is a break of the container: its last item is the one that broke, and its
     `whole` is false.  Where nothing at all could be read stands `broken`.  So `isWhole` never
     has to look below the top.
-/

namespace CommandLauncher.Document

/-- A document, or as much of one as could be read. -/
inductive Node (α : Type) where
  | leaf (a : α)
  | sequence (items : List (Node α)) (whole : Bool)
  | mapping (entries : List (Node α × Node α)) (whole : Bool)
  | marked (mark : String) (node : Node α)
  | broken
deriving Inhabited

/-- Whether the text was sound up to the end of this node. -/
def Node.isWhole {α : Type} : Node α → Bool
  | leaf _ => true
  | sequence _ whole => whole
  | mapping _ whole => whole
  | marked _ node => node.isWhole
  | broken => false

end CommandLauncher.Document
