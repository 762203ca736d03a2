/-
  PATHS — what can be said about a path by looking at its text alone.

  A path is a text whose names are separated by slashes.  Empty names and single dots inside it
  mean nothing, with one exception: a single dot at the very start of a relative path counts as a
  name.  Two dots are a name like any other here, since nothing is looked up.

  1. **Anatomy** — a path is its `base`, the slash of the root or the leading dot if it has one,
     followed by its `body`.  The body is worked on from its end: `trimBody` drops what means
     nothing there.

  2. **Parents** — `parent?` drops the last name.  The root and the empty path have no parent, and
     a parent is shorter than the path (`length_of_parent?`), which is why `ancestors` ends.

  3. **Names** — `fileName?` is the last name, `extension?` what follows its last dot, where that
     is not the first character.
-/

namespace CommandLauncher.Path

/-! ## Anatomy -/

/-- Whether the path starts at the root. -/
def isRooted : List Char → Bool
  | '/' :: _ => true
  | _ => false

/-- Whether the path starts with a single dot as its first name. -/
def startsHere : List Char → Bool
  | ['.'] => true
  | '.' :: '/' :: _ => true
  | _ => false

/-- The slash of the root, or the leading dot. -/
def base (p : List Char) : List Char := if isRooted p || startsHere p then p.take 1 else []

/-- What follows the base, from its end. -/
def bodyDown (p : List Char) : List Char := (p.drop (base p).length).reverse

/-- The last name of a body, backwards. -/
def lastName (down : List Char) : List Char := down.takeWhile (· ≠ '/')

/-- A body without its last name and the slash in front of it. -/
def withoutLast (down : List Char) : List Char := (down.dropWhile (· ≠ '/')).drop 1

theorem length_withoutLast_lt {down : List Char} (h : down ≠ []) :
    (withoutLast down).length < down.length := by
  cases down with
  | nil => exact absurd rfl h
  | cons c cs =>
    unfold withoutLast
    rw [List.dropWhile_cons]
    split
    · have : (cs.dropWhile (· ≠ '/')).length ≤ cs.length := (List.dropWhile_sublist _).length_le
      simp only [List.length_drop, List.length_cons]
      omega
    · simp

/-- A body without the empty names and single dots at its end. -/
def trimBody (down : List Char) : List Char :=
  if _h : down = [] then []
  else if lastName down = [] ∨ lastName down = ['.'] then trimBody (withoutLast down)
  else down
termination_by down.length
decreasing_by exact length_withoutLast_lt _h

theorem length_trimBody_le (down : List Char) : (trimBody down).length ≤ down.length := by
  fun_induction trimBody down with
  | case1 => exact Nat.le_refl _
  | case2 down h _ ih => exact Nat.le_trans ih (Nat.le_of_lt (length_withoutLast_lt h))
  | case3 down h h' => exact Nat.le_refl _

/-! ## Parents -/

/-- The path without its last name. -/
def parentChars? (p : List Char) : Option (List Char) :=
  let down := trimBody (bodyDown p)
  if down = [] then
    if startsHere p then some [] else none
  else some (base p ++ (trimBody (withoutLast down)).reverse)

/-- The path without its last name; nothing for the root and the empty path. -/
def parent? (p : String) : Option String := (parentChars? p.toList).map String.ofList

/-- A parent is shorter. -/
theorem length_of_parentChars? {p q : List Char} (h : parentChars? p = some q) :
    q.length < p.length := by
  unfold parentChars? at h
  dsimp only at h
  split at h
  · split at h
    · rename_i hs
      obtain rfl := Option.some.inj h
      cases p with
      | nil => simp [startsHere] at hs
      | cons c cs => simp
    · cases h
  · rename_i hne
    obtain rfl := Option.some.inj h
    have h₁ := length_trimBody_le (withoutLast (trimBody (bodyDown p)))
    have h₂ := length_withoutLast_lt hne
    have h₃ := length_trimBody_le (bodyDown p)
    have h₄ : (bodyDown p).length = p.length - (base p).length := by simp [bodyDown]
    have h₅ : (base p).length ≤ p.length := by
      unfold base
      split
      · simp only [List.length_take]; omega
      · simp
    simp only [List.length_append, List.length_reverse]
    omega

/-- The path, its parent, the parent of that, and so on. -/
def ancestorsOf (p : List Char) : List (List Char) :=
  match _h : parentChars? p with
  | none => [p]
  | some q => p :: ancestorsOf q
termination_by p.length
decreasing_by exact length_of_parentChars? _h

/-- The path, its parent, the parent of that, and so on. -/
def ancestors (p : String) : List String := (ancestorsOf p.toList).map String.ofList

/-! ## Joining -/

/-- A path below another one; a path that starts at the root stands for itself. -/
def join (p q : String) : String :=
  if isRooted q.toList then q
  else if p.isEmpty || p.toList.getLast? = some '/' then p ++ q
  else p ++ "/" ++ q

/-! ## Names -/

/-- The last name of the path, unless that is no ordinary one. -/
def fileName? (p : String) : Option String :=
  let name := (lastName (trimBody (bodyDown p.toList))).reverse
  if name = [] ∨ name = ['.', '.'] then none else some (String.ofList name)

/-- What follows the last dot of the last name. -/
def extension? (p : String) : Option String :=
  match fileName? p with
  | none => none
  | some name =>
    let down := name.toList.reverse
    let after := down.takeWhile (· ≠ '.')
    let before := (down.dropWhile (· ≠ '.')).drop 1
    if before = [] then none else some (String.ofList after.reverse)

/-! ## Running it -/

example : parent? "a/b/" = some "a" ∧ parent? "./x" = some "." ∧ parent? "x" = some "" ∧
    parent? "/" = none ∧ parent? "" = none ∧ parent? "a/./b" = some "a" := by decide +kernel
example : ancestors "/a/b" = ["/a/b", "/a", "/"] := by decide +kernel
example : extension? "x/s.json" = some "json" ∧ extension? ".json" = none := by decide +kernel
example : join "a" "b" = "a/b" ∧ join "" "b" = "b" ∧ join "a/" "b" = "a/b" ∧ join "a" "/b" = "/b" := by
  decide +kernel

end CommandLauncher.Path
