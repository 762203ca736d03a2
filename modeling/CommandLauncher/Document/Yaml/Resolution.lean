/-
  RESOLUTION — what a plain YAML scalar stands for when nothing says that it is a text.

  Texts are taken as they are written, so the meaning of a scalar matters in three places only:
  for flags, for optional values, and in messages about a wrong type.  The writer also asks, since
  a text that would be taken for something else has to be quoted.

  1. **Words** — `null`, `~` and nothing at all are no value; `true` and `false` are flags; both
     in three spellings each.

  2. **Integers** — decimal, or with a mark for base sixteen, eight or two, with at most 128 bits.
     A decimal number with superfluous zeros is none.

  3. **Decimals** — digits with at most one point and perhaps an exponent, as far as the number is
     finite, and the words for infinity and for no number.
-/
import CommandLauncher.Number.Shortest

namespace CommandLauncher.Document.Yaml

/-! ## Words -/

/-- The words for no value. -/
def isNullWord (s : String) : Bool := s == "null" || s == "Null" || s == "NULL" || s == "~"

/-- The flag that a word stands for. -/
def flagWord? (s : String) : Option Bool :=
  if s == "true" || s == "True" || s == "TRUE" then some true
  else if s == "false" || s == "False" || s == "FALSE" then some false
  else none

/-! ## Integers -/

/-- The amount of a digit of any base up to sixteen. -/
def anyDigit? (c : Char) : Option Nat :=
  if '0' ≤ c ∧ c ≤ '9' then some (c.toNat - 48)
  else if 'a' ≤ c ∧ c ≤ 'z' then some (c.toNat - 87)
  else if 'A' ≤ c ∧ c ≤ 'Z' then some (c.toNat - 55)
  else none

/-- The number written by one or more digits. -/
def digits? (base : Nat) (cs : List Char) : Option Nat :=
  if cs.isEmpty then none
  else
    cs.foldlM
      (fun n c =>
        match anyDigit? c with
        | some d => if d < base then some (base * n + d) else none
        | none => none) 0

/-- Whether a decimal number is written with superfluous zeros. -/
def hasExtraZero (cs : List Char) : Bool :=
  let unsigned := match cs with
    | '-' :: r => r
    | '+' :: r => r
    | r => r
  match unsigned with
  | '0' :: d :: ds => (d :: ds).all Char.isDigit
  | _ => false

/-- Drop a plus sign. -/
def withoutPlus : List Char → List Char
  | '+' :: cs => cs
  | cs => cs

/-- The number behind the sign of another base.  A plus or minus there is no digit. -/
def based? : List Char → Option Nat
  | '0' :: 'x' :: ds => digits? 16 ds
  | '0' :: 'o' :: ds => digits? 8 ds
  | '0' :: 'b' :: ds => digits? 2 ds
  | _ => none

/-- A number without minus sign. -/
def natural? (cs : List Char) : Option Nat :=
  let unsigned := withoutPlus cs
  match based? unsigned with
  | some n => some n
  | none => if hasExtraZero cs then none else digits? 10 unsigned

/-- A number with a minus sign. -/
def negated? (cs : List Char) : Option Nat :=
  match cs with
  | '-' :: ds =>
    match based? ds with
    | some n => some n
    | none => if hasExtraZero cs then none else digits? 10 ds
  | _ => none

/-- The integer that a scalar stands for, if it has at most 128 bits. -/
def integer? (s : String) : Option Int :=
  let cs := s.toList
  match natural? cs with
  | some n => if n < Nat.pow 2 128 then some n else none
  | none =>
    match negated? cs with
    | some n => if n ≤ Nat.pow 2 127 then some (-n) else none
    | none => none

/-! ## Decimals -/

/-- A decimal `digits · 10^exponent`, read from digits with at most one point and perhaps an
    exponent. -/
def decimal? (cs : List Char) : Option (Nat × Int) := do
  let whole := cs.takeWhile Char.isDigit
  let cs := cs.dropWhile Char.isDigit
  let (fraction, cs) := match cs with
    | '.' :: r => (r.takeWhile Char.isDigit, r.dropWhile Char.isDigit)
    | r => ([], r)
  if whole.isEmpty && fraction.isEmpty then none
  else
    let digits ← digits? 10 (whole ++ fraction)
    let shift : Int := -(fraction.length : Int)
    match cs with
    | [] => return (digits, shift)
    | e :: r =>
      if e ≠ 'e' ∧ e ≠ 'E' then none
      else
        let (down, r) := match r with
          | '-' :: r => (true, r)
          | '+' :: r => (false, r)
          | r => (false, r)
        let n ← digits? 10 r
        return (digits, if down then shift - n else shift + n)

/-- The floating-point number nearest to a decimal.  Exponents beyond all numbers are cut off. -/
def nearest (digits : Nat) (exponent : Int) : Float :=
  if digits = 0 then 0
  else
    let size := (Nat.toDigits 10 digits).length + exponent
    if size > 400 then Float.ofScientific 1 false 400
    else if size < -400 then 0
    else if 0 ≤ exponent then Float.ofScientific digits false exponent.toNat
    else Float.ofScientific digits true (-exponent).toNat

/-- The written form of the decimal number that a scalar stands for. -/
def decimalText? (s : String) : Option String :=
  let cs := s.toList
  let unsigned := withoutPlus cs
  let word := String.ofList unsigned
  if cs.head? = some '+' && (unsigned.head? = some '+' || unsigned.head? = some '-') then none
  else if word == ".inf" || word == ".Inf" || word == ".INF" then some "inf"
  else if s == "-.inf" || s == "-.Inf" || s == "-.INF" then some "-inf"
  else if s == ".nan" || s == ".NaN" || s == ".NAN" then some "NaN"
  else
    let (negative, digits) := match unsigned with
      | '-' :: r => (true, r)
      | '+' :: r => (false, r)
      | r => (false, r)
    match decimal? digits with
    | none => none
    | some (n, e) =>
      let x := nearest n e
      if x.isInf then none else some (Number.positional (if negative then -x else x))

/-! ## Together -/

/-- What a plain scalar stands for. -/
inductive Meaning where
  | null
  | flag (b : Bool)
  | integer (n : Int)
  | decimal (written : String)
  | text

/-- What a plain scalar stands for. -/
def meaning (s : String) : Meaning :=
  if s.isEmpty || isNullWord s then .null
  else
    match flagWord? s with
    | some b => .flag b
    | none =>
      match integer? s with
      | some n => .integer n
      | none =>
        if hasExtraZero s.toList then .text
        else
          match decimalText? s with
          | some written => .decimal written
          | none => .text

/-- Whether a plain scalar is certain to be taken for a text. -/
def isPlainText (s : String) : Bool :=
  match meaning s with
  | .text => !hasExtraZero s.toList
  | _ => false

end CommandLauncher.Document.Yaml
