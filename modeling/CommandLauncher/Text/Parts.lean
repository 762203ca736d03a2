/-
  PARTS — cutting a text at a separator, and putting it together again.

  1. **Cutting** — `split sep s` cuts at every occurrence of `sep`, so `n` separators give
     `n + 1` pieces, empty ones included: `split ',' ""` is `[""]`.

  2. **Parts** — `parts sep s` trims the pieces and forgets those that come out empty.  The
     options of a variable (separated by commas) and the segments of a group path (separated by
     slashes) are both read this way.

  3. **Joining** — `join sep xs` writes the texts one after another with `sep` in between.
-/
import CommandLauncher.Text.Blank

namespace CommandLauncher.Text

/-- The pieces of `cs` between the occurrences of `sep`; never the empty list. -/
def splitChars (sep : Char) : List Char → List (List Char)
  | [] => [[]]
  | c :: cs =>
    if c = sep then [] :: splitChars sep cs
    else
      match splitChars sep cs with
      | [] => [[c]]
      | piece :: pieces => (c :: piece) :: pieces

/-- `split sep s` — the pieces of `s` between the occurrences of `sep`. -/
def split (sep : Char) (s : String) : List String :=
  (splitChars sep s.toList).map String.ofList

/-- The trimmed pieces that are not empty. -/
def parts (sep : Char) (s : String) : List String :=
  ((split sep s).map trim).filter (fun piece => !piece.isEmpty)

/-- The texts one after another with `sep` in between. -/
def join (sep : String) : List String → String
  | [] => ""
  | [x] => x
  | x :: xs => x ++ sep ++ join sep xs

/-- There is always a first piece. -/
theorem splitChars_ne_nil (sep : Char) (cs : List Char) : splitChars sep cs ≠ [] := by
  cases cs with
  | nil => simp [splitChars]
  | cons c cs => unfold splitChars; split <;> (try split) <;> simp

/-- A text is cut at every separator. -/
theorem splitChars_append_sep (sep : Char) (as bs : List Char) :
    splitChars sep (as ++ sep :: bs) = splitChars sep as ++ splitChars sep bs := by
  induction as with
  | nil => simp [splitChars]
  | cons c as ih =>
    rw [List.cons_append, splitChars, splitChars, ih]
    split
    · rfl
    · cases h : splitChars sep as with
      | nil => exact absurd h (splitChars_ne_nil sep as)
      | cons piece pieces => rfl

/-- A text without the separator is one piece. -/
theorem splitChars_of_not_mem {sep : Char} {cs : List Char} (h : sep ∉ cs) :
    splitChars sep cs = [cs] := by
  induction cs with
  | nil => rfl
  | cons c cs ih =>
    obtain ⟨hc, hcs⟩ := not_or.mp (mt List.mem_cons.mpr h)
    rw [splitChars, if_neg (Ne.symm hc), ih hcs]

/-! ## Running it -/

example : split '/' "a//b/" = ["a", "", "b", ""] := by decide +kernel
example : parts ',' " a, ,b ,, c d" = ["a", "b", "c d"] := by decide +kernel
example : join ", " ["a", "b", "c"] = "a, b, c" := by decide +kernel

end CommandLauncher.Text
