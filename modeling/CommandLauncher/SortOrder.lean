/-
  SORT ORDER — how variables, commands and groups are put into order.

  1. **The comparison** (`compareKeys`) — keys are compared without regard to case, by the
     characters of their lower-case images.  Keys that agree there are told apart by the first
     position at which one has an upper-case character and the other has not; the one without
     comes first.  If that does not tell them apart either, the shorter one (in bytes of UTF-8)
     comes first.

  2. **The sort** (`Sorting`) — a stable sort is known by its contract.  What it returns is
     always a permutation of the items.  But only where the comparison is a total preorder on the
     keys (`Consistent`) must it return anything, and only there are the items in order and those
     that compare equal in the order in which they came.  The comparison of keys is no total
     preorder on all keys, so elsewhere the sort may give up (`none`) or leave any order.

  3. **The arrangement** — in the order of the settings file nothing moves, and in alphabetical
     order the items are sorted: by any sort with the contract (`Sorting.arrange?`), or by
     insertion (`arrange`), where each new item walks from the end of the sorted ones to the
     front, past those that are greater than itself, and stops behind an equal one.  Insertion is
     the sort that runs here.  It is what a library sort does with up to twenty items, and what
     every sort with the contract returns on consistent keys; for longer lists of other keys it
     is only one of the sorts that the contract allows.
-/
import CommandLauncher.Text.Case

namespace CommandLauncher

/-- The order of a settings document: as written, or by name. -/
inductive SortOrder where
  | settings
  | alphabetical
deriving DecidableEq, Repr, Inhabited

namespace SortOrder

/-- The name of an order in a settings document. -/
def name : SortOrder → String
  | settings => "settings"
  | alphabetical => "alphabetical"

/-- All orders, as they are listed to the user. -/
def all : List SortOrder := [settings, alphabetical]

/-- The order with a given name. -/
def ofName? (s : String) : Option SortOrder := all.find? (fun o => o.name = s)

theorem ofName?_name (o : SortOrder) : ofName? o.name = some o := by cases o <;> decide

end SortOrder

/-! ## Comparing keys -/

/-- The characters of the lower-case images of a key's characters. -/
def loweredKey (s : String) : List Char := s.toList.flatMap Text.lower

/-- An upper-case character ranks behind any other. -/
def caseRank (c : Char) : Nat := if Text.isUpper c then 1 else 0

/-- The first difference in rank at a position that both have. -/
def compareRanks : List Char → List Char → Ordering
  | x :: xs, y :: ys => (compare (caseRank x) (caseRank y)).then (compareRanks xs ys)
  | _, _ => .eq

/-- Compare by lower-case images, then by case, then by length. -/
def compareKeys (a b : String) : Ordering :=
  (List.compareLex (compareOn Char.toNat) (loweredKey a) (loweredKey b)).then
    ((compareRanks a.toList b.toList).then (compare a.utf8ByteSize b.utf8ByteSize))

/-! ## Sorting by contract -/

/-- On these keys the comparison is a total preorder: what is not greater in two steps is not
    greater at once.  (That the comparison turned round is the opposite holds of all keys.) -/
def Consistent (keys : List String) : Prop :=
  ∀ a ∈ keys, ∀ b ∈ keys, ∀ c ∈ keys,
    compareKeys a b ≠ .gt → compareKeys b c ≠ .gt → compareKeys a c ≠ .gt

instance (keys : List String) : Decidable (Consistent keys) :=
  inferInstanceAs (Decidable (∀ a ∈ keys, ∀ b ∈ keys, ∀ c ∈ keys,
    compareKeys a b ≠ .gt → compareKeys b c ≠ .gt → compareKeys a c ≠ .gt))

/-- `ys` are the items `xs` in order, and items that compare equal stand as they came. -/
structure IsSorted {α : Type} (key : α → String) (xs ys : List α) : Prop where
  perm : ys.Perm xs
  ordered : ys.Pairwise fun x y => compareKeys (key x) (key y) ≠ .gt
  stable : ∀ x ∈ xs, ys.filter (fun y => compareKeys (key x) (key y) = .eq) =
    xs.filter fun y => compareKeys (key x) (key y) = .eq

/-- A stable sort by keys, known by its contract: it loses and invents nothing, and on consistent
    keys it returns and sorts. -/
structure Sorting where
  /-- The items as the sort leaves them; nothing where it gives up. -/
  sort? : {α : Type} → (α → String) → List α → Option (List α)
  perm : ∀ {α : Type} {key : α → String} {xs ys : List α}, sort? key xs = some ys → ys.Perm xs
  sorts : ∀ {α : Type} {key : α → String} {xs : List α}, Consistent (xs.map key) →
    ∃ ys, sort? key xs = some ys ∧ IsSorted key xs ys

/-- The items in the given order, with a given sort. -/
def Sorting.arrange? {α : Type} (sorting : Sorting) (key : α → String) (xs : List α) :
    SortOrder → Option (List α)
  | .settings => some xs
  | .alphabetical => sorting.sort? key xs

theorem Sorting.arrange?_perm {α : Type} (sorting : Sorting) {key : α → String} {xs ys : List α}
    {order : SortOrder} (h : sorting.arrange? key xs order = some ys) : ys.Perm xs := by
  cases order with
  | settings =>
    obtain rfl := Option.some.inj h
    exact List.Perm.refl _
  | alphabetical => exact sorting.perm h

/-! ## Arranging by insertion -/

/-- Put `x` into a list that is written from its greatest item down: in front of the first item
    that is not greater than `x`. -/
def placeDown {α : Type} (key : α → String) (x : α) : List α → List α
  | [] => [x]
  | y :: ys =>
    if compareKeys (key x) (key y) = .lt then y :: placeDown key x ys else x :: y :: ys

/-- The items by key, from the greatest down; of equal ones the last comes first. -/
def sortDown {α : Type} (key : α → String) (xs : List α) : List α :=
  xs.foldl (fun sorted x => placeDown key x sorted) []

/-- The items in the given order, sorted by insertion. -/
def arrange {α : Type} (key : α → String) (xs : List α) : SortOrder → List α
  | .settings => xs
  | .alphabetical => (sortDown key xs).reverse

theorem placeDown_perm {α : Type} (key : α → String) (x : α) (ys : List α) :
    (placeDown key x ys).Perm (x :: ys) := by
  induction ys with
  | nil => exact List.Perm.refl _
  | cons y ys ih =>
    unfold placeDown
    split
    · exact (ih.cons y).trans (List.Perm.swap x y ys)
    · exact List.Perm.refl _

/-- Sorting loses and invents nothing. -/
theorem sortDown_perm {α : Type} (key : α → String) (xs : List α) :
    (sortDown key xs).Perm xs := by
  have step : ∀ (xs acc : List α),
      (xs.foldl (fun sorted x => placeDown key x sorted) acc).Perm (xs ++ acc) := by
    intro xs
    induction xs with
    | nil => intro acc; exact List.Perm.refl _
    | cons x xs ih =>
      intro acc
      refine (ih (placeDown key x acc)).trans ?_
      refine ((placeDown_perm key x acc).append_left xs).trans ?_
      exact List.perm_middle
  simpa [sortDown] using step xs []

/-- Arranging loses and invents nothing. -/
theorem arrange_perm {α : Type} (key : α → String) (xs : List α) (order : SortOrder) :
    (arrange key xs order).Perm xs := by
  cases order with
  | settings => exact List.Perm.refl _
  | alphabetical => exact (List.reverse_perm _).trans (sortDown_perm key xs)

/-! ## Running it -/

example : compareKeys "abc" "ABD" = .lt := by decide +kernel
example : compareKeys "aB" "Ab" = .lt := by decide +kernel
example : arrange id ["b", "B", "a", "A"] .alphabetical = ["a", "A", "b", "B"] := by decide +kernel
example : arrange id ["b", "a"] .settings = ["b", "a"] := by decide +kernel

end CommandLauncher
