/-
  BLANKS — the characters that count as white space, and trimming.

  A character is blank when Unicode gives it the property `White_Space`; core's
  `Char.isWhitespace` knows only the four ASCII ones, so the class is spelled out here
  (`isBlank`).

  1. **Trimming** — `trim` drops the blanks of both ends and nothing else.  What is left starts
     and ends with a character that is not blank, or is empty.

  2. **Blank texts** — `isBlankText s` says that nothing is left of `s` after trimming, so that
     `s` consists of blanks (`isBlankText_iff`).  Titles, command texts and names are refused
     exactly when they are blank texts.

  3. **Optional texts** — `nonBlank s` is the trimmed text, unless that is empty: the way in
     which every optional answer of a dialog is stored.
-/

namespace CommandLauncher.Text

/-! ## The class -/

/-- The characters of Unicode's `White_Space`. -/
def isBlank (c : Char) : Bool :=
  let n := c.toNat
  (9 ≤ n && n ≤ 13) || n == 0x20 || n == 0x85 || n == 0xA0 || n == 0x1680 ||
  (0x2000 ≤ n && n ≤ 0x200A) || n == 0x2028 || n == 0x2029 || n == 0x202F || n == 0x205F ||
  n == 0x3000

/-! ## Trimming -/

/-- Drop the blanks at the start. -/
def trimStart (cs : List Char) : List Char := cs.dropWhile isBlank

/-- Drop the blanks at the end. -/
def trimEnd (cs : List Char) : List Char := (cs.reverse.dropWhile isBlank).reverse

/-- Drop the blanks at both ends. -/
def trimChars (cs : List Char) : List Char := trimEnd (trimStart cs)

/-- `trim s` is `s` without the blanks at its two ends. -/
def trim (s : String) : String := String.ofList (trimChars s.toList)

/-- Nothing is left of a blank text after trimming. -/
def isBlankText (s : String) : Bool := (trim s).isEmpty

/-- The trimmed text, or nothing where that is empty. -/
def nonBlank (s : String) : Option String :=
  if isBlankText s then none else some (trim s)

/-! ## Blank texts -/

theorem dropWhile_eq_nil_iff {cs : List Char} :
    cs.dropWhile isBlank = [] ↔ ∀ c ∈ cs, isBlank c = true := by
  induction cs with
  | nil => simp
  | cons c cs ih =>
    rw [List.dropWhile_cons]
    split <;> simp_all

/-- Trimming takes away blanks at the two ends. -/
theorem exists_ends (cs : List Char) : ∃ before after, cs = before ++ trimChars cs ++ after ∧
    (∀ c ∈ before, isBlank c = true) ∧ ∀ c ∈ after, isBlank c = true := by
  refine ⟨cs.takeWhile isBlank, ((trimStart cs).reverse.takeWhile isBlank).reverse, ?_,
    List.all_eq_true.mp List.all_takeWhile, fun c hc => ?_⟩
  · have hend : trimChars cs ++ ((trimStart cs).reverse.takeWhile isBlank).reverse =
        trimStart cs := by
      rw [trimChars, trimEnd, ← List.reverse_append, List.takeWhile_append_dropWhile,
        List.reverse_reverse]
    rw [List.append_assoc, hend, trimStart, List.takeWhile_append_dropWhile]
  · exact List.all_eq_true.mp List.all_takeWhile c (List.mem_reverse.mp hc)

theorem trimChars_eq_nil_iff {cs : List Char} : trimChars cs = [] ↔ ∀ c ∈ cs, isBlank c = true := by
  constructor
  · intro hnil c hc
    obtain ⟨before, after, h, hbefore, hafter⟩ := exists_ends cs
    rw [h, hnil, List.append_nil] at hc
    exact (List.mem_append.mp hc).elim (hbefore c) (hafter c)
  · intro hall
    rw [trimChars, trimStart, dropWhile_eq_nil_iff.mpr hall]
    rfl

/-- Nothing is left of a text exactly when it consists of blanks. -/
theorem isBlankText_iff {s : String} : isBlankText s = true ↔ ∀ c ∈ s.toList, isBlank c = true := by
  rw [isBlankText, trim, String.isEmpty_iff, String.ofList_eq_empty_iff, trimChars_eq_nil_iff]

/-- A text is blank exactly when it is after trimming. -/
theorem isBlankText_trim (s : String) : isBlankText (trim s) = isBlankText s := by
  obtain ⟨before, after, h, hbefore, hafter⟩ := exists_ends s.toList
  rw [Bool.eq_iff_iff, isBlankText_iff, isBlankText_iff, trim, String.toList_ofList]
  constructor
  · intro htrim c hc
    rw [h] at hc
    rcases List.mem_append.mp hc with hc | hc
    · exact (List.mem_append.mp hc).elim (hbefore c) (htrim c)
    · exact hafter c hc
  · intro hall c hc
    refine hall c ?_
    rw [h]
    exact List.mem_append_left _ (List.mem_append_right _ hc)

/-! ## Running it -/

example : trim " \t a b\u00a0\u2003" = "a b" := by decide +kernel
example : isBlankText "\u3000\n" = true := by decide +kernel
example : nonBlank " x " = some "x" := by decide +kernel

end CommandLauncher.Text
