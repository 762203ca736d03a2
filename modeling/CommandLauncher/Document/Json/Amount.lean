/-
  JSON AMOUNTS — what a JSON number amounts to.

  Nothing in a settings document is a number, so amounts are only shown: in the message that
  another type was expected.

  1. **Integers** — a number without point and exponent is an integer if it fits a 64-bit word,
     signed or unsigned.  Minus zero is not an integer.

  2. **Decimals** — any other number is brought to the form s · 10^e with a natural number s of
     64 bits: digits are taken as long as s can hold them, and later ones only move the point.
     Then s is multiplied or divided by the power of ten, in floating-point arithmetic.

  3. **Out of range** — what exceeds the largest floating-point number is not accepted.
-/
import CommandLauncher.Document.Json.Token

namespace CommandLauncher.Document.Json

/-- What a number amounts to. -/
inductive Amount where
  | integer (n : Int)
  | decimal (x : Float)
  | outOfRange

/-- The amount of a decimal digit. -/
def digitValue (c : Char) : Nat := c.toNat - 48

/-- The natural number that the digits write. -/
def naturalOf (ds : List Char) : Nat := ds.foldl (fun n d => 10 * n + digitValue d) 0

/-- Take digits into `s` while 64 bits can hold it; the result and the number of digits left. -/
def takeDigits (s : Nat) : List Char → Nat × Nat
  | [] => (s, 0)
  | d :: ds =>
    let next := 10 * s + digitValue d
    if next < Nat.pow 2 64 then takeDigits next ds else (s, ds.length + 1)

/-- The power 10^n as a floating-point number. -/
def tenTo (n : Nat) : Float := Float.ofScientific 1 false n

/-- Multiply or divide by 10^|e|; very small numbers need more than one division. -/
def scaleFloat (f : Float) (e : Int) : Nat → Option Float
  | 0 => some f
  | tries + 1 =>
    if e.natAbs ≤ 308 then
      if 0 ≤ e then
        let product := f * tenTo e.toNat
        if product.isInf then none else some product
      else some (f / tenTo e.natAbs)
    else if f == 0 then some f
    else if 0 ≤ e then none
    else scaleFloat (f / tenTo 308) (e + 308) tries

/-- The decimal s · 10^e with its sign. -/
def decimalOf (negative : Bool) (s : Nat) (e : Int) : Amount :=
  match scaleFloat (Float.ofNat s) e (e.natAbs / 308 + 2) with
  | some f => .decimal (if negative then -f else f)
  | none => .outOfRange

/-- An exponent that does not fit 31 bits leaves a zero or runs out of range. -/
def withExponent (negative : Bool) (s : Nat) (e : Int) : Option (Bool × List Char) → Amount
  | none => decimalOf negative s e
  | some (down, ds) =>
    let n := naturalOf ds
    if n < Nat.pow 2 31 then decimalOf negative s (if down then e - n else e + n)
    else if s ≠ 0 && !down then .outOfRange
    else .decimal (if negative then -0.0 else 0.0)

/-- What a number amounts to. -/
def Literal.amount (l : Literal) : Amount :=
  let (s, left) := takeDigits 0 l.whole
  if !l.isDecimal && left = 0 then
    if !l.negative then .integer s
    else if s = 0 then .decimal (-0.0)
    else if s ≤ Nat.pow 2 63 then .integer (-s)
    else .decimal (-(Float.ofNat s))
  else
    -- Digits that were left over in front of the point move it.
    let (s', left') := takeDigits s l.fraction
    withExponent l.negative s' ((left : Int) - (l.fraction.length - left' : Nat)) l.exponent

end CommandLauncher.Document.Json
