/-
  JSON TOKENS — the words and signs of a JSON text.

  1. **Tokens** — brackets, braces, colons, commas, the three words, numbers and strings.  Blanks
     (space, tab, line feed and carriage return) stand between tokens and mean nothing.

  2. **Numbers** — an optional minus sign, an integer part without superfluous zeros, and perhaps
     a fraction and an exponent, each with at least one digit.  A number is kept as written.

  3. **Strings** — a string is a list of glyphs: characters, and code units written by four
     hexadecimal digits.  Its text is decoded from the glyphs (`decode`): two units that form a
     surrogate pair are one character, and a surrogate on its own has no text.

  4. **The end of sense** — `tokens` stops at the first place where no token can be read and puts
     the token `fault` there.  What comes before it is not affected.
-/

namespace CommandLauncher.Document.Json

/-- A number as it is written. -/
structure Literal where
  negative : Bool
  whole : List Char
  fraction : List Char
  /-- The sign and the digits of the exponent. -/
  exponent : Option (Bool × List Char)
  /-- Whether a point or an exponent is written. -/
  isDecimal : Bool
deriving DecidableEq, Repr

/-- A part of a string: a character, or a code unit. -/
inductive Glyph where
  | char (c : Char)
  | unit (n : Nat)
deriving DecidableEq, Repr

inductive Token where
  | openBracket
  | closeBracket
  | openBrace
  | closeBrace
  | colon
  | comma
  | null
  | flag (b : Bool)
  | number (n : Literal)
  | string (glyphs : List Glyph)
  | fault
deriving DecidableEq, Repr

/-! ## Blanks -/

/-- The characters that may stand between tokens. -/
def isSpace (c : Char) : Bool := c == ' ' || c == '\n' || c == '\t' || c == '\r'

/-! ## Strings -/

/-- The amount of a hexadecimal digit. -/
def hexValue? (c : Char) : Option Nat :=
  if '0' ≤ c ∧ c ≤ '9' then some (c.toNat - 48)
  else if 'a' ≤ c ∧ c ≤ 'f' then some (c.toNat - 87)
  else if 'A' ≤ c ∧ c ≤ 'F' then some (c.toNat - 55)
  else none

/-- The code unit written by four hexadecimal digits. -/
def unit? (a b c d : Char) : Option Nat := do
  let a ← hexValue? a
  let b ← hexValue? b
  let c ← hexValue? c
  let d ← hexValue? d
  return ((a * 16 + b) * 16 + c) * 16 + d

/-- The character that a letter after a backslash stands for. -/
def escape? : Char → Option Char
  | '"' => some '"'
  | '\\' => some '\\'
  | '/' => some '/'
  | 'b' => some '\x08'
  | 'f' => some '\x0c'
  | 'n' => some '\n'
  | 'r' => some '\r'
  | 't' => some '\t'
  | _ => none

/-- The glyphs up to the closing quote, and what follows it.  Control characters have to be
    escaped. -/
def glyphs? : List Char → Option (List Glyph × List Char)
  | [] => none
  | '"' :: rest => some ([], rest)
  | '\\' :: 'u' :: a :: b :: c :: d :: rest => do
    let n ← unit? a b c d
    let (gs, after) ← glyphs? rest
    return (.unit n :: gs, after)
  | '\\' :: e :: rest => do
    let c ← escape? e
    let (gs, after) ← glyphs? rest
    return (.char c :: gs, after)
  | c :: rest =>
    if c = '\\' ∨ c.toNat < 0x20 then none
    else (glyphs? rest).map fun (gs, after) => (.char c :: gs, after)

/-- Whether a code unit is the first half of a pair. -/
def isHighUnit (n : Nat) : Bool := 0xD800 ≤ n && n < 0xDC00

/-- Whether a code unit is the second half of a pair. -/
def isLowUnit (n : Nat) : Bool := 0xDC00 ≤ n && n < 0xE000

/-- The text of a string, unless it holds half a pair on its own. -/
def decode : List Glyph → Option (List Char)
  | [] => some []
  | .char c :: rest => (decode rest).map (c :: ·)
  | .unit n :: rest =>
    if isHighUnit n then
      match rest with
      | .unit m :: rest' =>
        if isLowUnit m then
          (decode rest').map (Char.ofNat (0x10000 + (n - 0xD800) * 0x400 + (m - 0xDC00)) :: ·)
        else none
      | _ => none
    else if isLowUnit n then none
    else (decode rest).map (Char.ofNat n :: ·)

/-! ## Numbers -/

/-- A fraction, where one is written: its digits and what follows. -/
def fraction? : List Char → Option (Option (List Char) × List Char)
  | '.' :: cs =>
    match cs.takeWhile Char.isDigit with
    | [] => none
    | ds => some (some ds, cs.dropWhile Char.isDigit)
  | cs => some (none, cs)

/-- The digits of an exponent. -/
def exponentDigits? (negative : Bool) (cs : List Char) :
    Option (Option (Bool × List Char) × List Char) :=
  match cs.takeWhile Char.isDigit with
  | [] => none
  | ds => some (some (negative, ds), cs.dropWhile Char.isDigit)

/-- An exponent, where one is written: its sign, its digits and what follows. -/
def exponent? : List Char → Option (Option (Bool × List Char) × List Char)
  | e :: cs =>
    if e = 'e' ∨ e = 'E' then
      match cs with
      | '+' :: cs => exponentDigits? false cs
      | '-' :: cs => exponentDigits? true cs
      | cs => exponentDigits? false cs
    else some (none, e :: cs)
  | [] => some (none, [])

/-- The integer part: one zero, or digits that start with another one. -/
def whole? (cs : List Char) : Option (List Char × List Char) :=
  match cs.takeWhile Char.isDigit with
  | [] => none
  | '0' :: _ :: _ => none
  | ds => some (ds, cs.dropWhile Char.isDigit)

/-- A number without its minus sign. -/
def unsigned? (negative : Bool) (cs : List Char) : Option (Literal × List Char) := do
  let (whole, cs) ← whole? cs
  let (fraction, cs) ← fraction? cs
  let (exponent, cs) ← exponent? cs
  let literal : Literal :=
    { negative, whole, fraction := fraction.getD [], exponent,
      isDecimal := fraction.isSome || exponent.isSome }
  return (literal, cs)

/-- A number at the start of a text, and what follows it. -/
def literal? : List Char → Option (Literal × List Char)
  | '-' :: cs => unsigned? true cs
  | cs => unsigned? false cs

/-! ## The next token -/

/-- The token at the start of a text without blanks in front, and what follows it. -/
def token? : List Char → Option (Token × List Char)
  | '[' :: cs => some (.openBracket, cs)
  | ']' :: cs => some (.closeBracket, cs)
  | '{' :: cs => some (.openBrace, cs)
  | '}' :: cs => some (.closeBrace, cs)
  | ':' :: cs => some (.colon, cs)
  | ',' :: cs => some (.comma, cs)
  | 'n' :: 'u' :: 'l' :: 'l' :: cs => some (.null, cs)
  | 't' :: 'r' :: 'u' :: 'e' :: cs => some (.flag true, cs)
  | 'f' :: 'a' :: 'l' :: 's' :: 'e' :: cs => some (.flag false, cs)
  | '"' :: cs => (glyphs? cs).map fun (gs, rest) => (.string gs, rest)
  | cs => (literal? cs).map fun (n, rest) => (.number n, rest)

/-! ## Every token takes something away -/

theorem length_dropWhile_lt {α : Type} {p : α → Bool} {l : List α}
    (h : l.takeWhile p ≠ []) : (l.dropWhile p).length < l.length := by
  cases l with
  | nil => simp at h
  | cons a l =>
    rw [List.dropWhile_cons]
    split
    · simpa using Nat.lt_succ_of_le (List.dropWhile_sublist p).length_le
    · rename_i hp
      simp [hp] at h

theorem length_of_glyphs? {cs rest : List Char} {gs : List Glyph}
    (h : glyphs? cs = some (gs, rest)) : rest.length < cs.length := by
  fun_induction glyphs? cs generalizing gs with
  | case1 => simp at h
  | case2 rest' =>
    obtain ⟨-, rfl⟩ := by simpa using h
    simp
  | case3 a b c d rest' ih =>
    simp only [Option.bind_eq_bind, Option.bind_eq_some_iff, Option.pure_def, Option.some.injEq,
      Prod.mk.injEq, Prod.exists] at h
    obtain ⟨n, -, gs', after, h', -, rfl⟩ := h
    have := ih h'
    simp only [List.length_cons]
    omega
  | case4 e rest' _ ih =>
    simp only [Option.bind_eq_bind, Option.bind_eq_some_iff, Option.pure_def, Option.some.injEq,
      Prod.mk.injEq, Prod.exists] at h
    obtain ⟨c, -, gs', after, h', -, rfl⟩ := h
    have := ih h'
    simp only [List.length_cons]
    omega
  | case5 => simp at h
  | case6 c rest' _ _ _ _ ih =>
    simp only [Option.map_eq_some_iff, Prod.mk.injEq, Prod.exists] at h
    obtain ⟨gs', after, h', -, rfl⟩ := h
    have := ih h'
    simp only [List.length_cons]
    omega

theorem length_of_fraction? {cs rest : List Char} {f : Option (List Char)}
    (h : fraction? cs = some (f, rest)) : rest.length ≤ cs.length := by
  unfold fraction? at h
  split at h
  · rename_i ds
    split at h
    · simp at h
    · obtain ⟨-, rfl⟩ := by simpa using h
      have : (ds.dropWhile Char.isDigit).length ≤ ds.length := (List.dropWhile_sublist _).length_le
      simp only [List.length_cons]
      omega
  · obtain ⟨-, rfl⟩ := by simpa using h
    exact Nat.le_refl _

theorem length_of_exponentDigits? {negative : Bool} {cs rest : List Char}
    {e : Option (Bool × List Char)} (h : exponentDigits? negative cs = some (e, rest)) :
    rest.length ≤ cs.length := by
  unfold exponentDigits? at h
  split at h
  · simp at h
  · obtain ⟨-, rfl⟩ := by simpa using h
    exact (List.dropWhile_sublist _).length_le

theorem length_of_exponent? {cs rest : List Char} {e : Option (Bool × List Char)}
    (h : exponent? cs = some (e, rest)) : rest.length ≤ cs.length := by
  unfold exponent? at h
  split at h
  · split at h
    · split at h <;>
        (have h' := length_of_exponentDigits? h; simp only [List.length_cons] at *; omega)
    · obtain ⟨-, rfl⟩ := by simpa using h
      exact Nat.le_refl _
  · obtain ⟨-, rfl⟩ := by simpa using h
    exact Nat.le_refl _

theorem length_of_whole? {cs rest ds : List Char} (h : whole? cs = some (ds, rest)) :
    rest.length < cs.length := by
  unfold whole? at h
  split at h
  · simp at h
  · simp at h
  · rename_i hne _
    obtain ⟨-, rfl⟩ := by simpa using h
    exact length_dropWhile_lt hne

theorem length_of_literal? {cs rest : List Char} {n : Literal}
    (h : literal? cs = some (n, rest)) : rest.length < cs.length := by
  have key : ∀ {negative : Bool} {cs : List Char}, unsigned? negative cs = some (n, rest) →
      rest.length < cs.length := by
    intro negative cs h
    simp only [unsigned?, Option.bind_eq_bind, Option.bind_eq_some_iff, Option.pure_def,
      Option.some.injEq, Prod.mk.injEq, Prod.exists] at h
    obtain ⟨ds, r₁, h₁, f, r₂, h₂, e, r₃, h₃, -, rfl⟩ := h
    have := length_of_whole? h₁
    have := length_of_fraction? h₂
    have := length_of_exponent? h₃
    omega
  unfold literal? at h
  split at h
  · have := key h
    simp only [List.length_cons]
    omega
  · exact key h

theorem length_of_token? {cs rest : List Char} {t : Token} (h : token? cs = some (t, rest)) :
    rest.length < cs.length := by
  unfold token? at h
  split at h
  case h_10 =>
    simp only [Option.map_eq_some_iff, Prod.mk.injEq, Prod.exists] at h
    obtain ⟨gs, r, h', -, rfl⟩ := h
    have := length_of_glyphs? h'
    simp only [List.length_cons]
    omega
  case h_11 =>
    simp only [Option.map_eq_some_iff, Prod.mk.injEq, Prod.exists] at h
    obtain ⟨n, r, h', -, rfl⟩ := h
    exact length_of_literal? h'
  all_goals
    obtain ⟨-, rfl⟩ := by simpa using h
    simp only [List.length_cons]
    omega

/-! ## All tokens -/

/-- The tokens of a text, up to the first place where none can be read. -/
def tokensOf (cs : List Char) : List Token :=
  match _h : cs.dropWhile isSpace with
  | [] => []
  | d :: ds =>
    match _h' : token? (d :: ds) with
    | none => [.fault]
    | some (t, rest) => t :: tokensOf rest
termination_by cs.length
decreasing_by
  have := length_of_token? _h'
  have : (cs.dropWhile isSpace).length ≤ cs.length := (List.dropWhile_sublist _).length_le
  rw [_h] at this
  omega

/-- The tokens of a text, up to the first place where none can be read. -/
def tokens (s : String) : List Token := tokensOf s.toList

/-! ## Running it -/

example : tokens "[1, \"a\\n\"] x" =
    [.openBracket, .number ⟨false, ['1'], [], none, false⟩, .comma,
      .string [.char 'a', .char '\n'], .closeBracket, .fault] := by decide +kernel
example : decode [.unit 0xD83D, .unit 0xDE00] = some ['😀'] := by decide +kernel
example : decode [.unit 0xD83D, .char 'x'] = none := by decide +kernel

end CommandLauncher.Document.Json
