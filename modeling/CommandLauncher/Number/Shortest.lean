/-
  SHORTEST DECIMALS — the fewest digits that name a floating-point number.

  A finite number is m · 2^q with naturals m and an integer q, and the reals that round to it form
  an interval around it.  Among all decimals d · 10^k inside that interval the program writes one
  with the fewest digits, and of those the nearest.

  1. **The interval** — in quarters of the last binary place the number is 4m, the interval ends
     at 4m + 2, and it starts at 4m - 2, or at 4m - 1 where the binary place changes.  The ends
     belong to it exactly when m is even.

  2. **The search** — for 1, 2, … 17 digits, take the two neighbours of the number on the grid of
     decimals with that many digits.  The first grid with a neighbour inside the interval wins.
     Everything is exact arithmetic on naturals.

  3. **Written forms** — `positional` never uses an exponent, `compact` writes one for very large
     and very small numbers.  Both keep a decimal point.
-/

namespace CommandLauncher.Number

/-- A decimal `digits · 10^exponent`. -/
structure Decimal where
  digits : Nat
  exponent : Int
deriving DecidableEq, Repr

/-! ## The binary side -/

/-- A positive number m · 2^q, with what the search needs to know of its neighbours. -/
structure Binary where
  mantissa : Nat
  exponent : Int
  /-- Whether the next number below is only half as far away as the next one above. -/
  atPower : Bool

/-- The parts of a finite number without its sign. -/
def Binary.ofFloat (x : Float) : Binary :=
  let bits := x.toBits.toNat
  let biased := (bits / Nat.pow 2 52) % Nat.pow 2 11
  let fraction := bits % Nat.pow 2 52
  if biased = 0 then { mantissa := fraction, exponent := -1074, atPower := false }
  else
    { mantissa := Nat.pow 2 52 + fraction, exponent := Int.ofNat biased - 1075,
      atPower := fraction = 0 && biased ≠ 1 }

/-! ## The search -/

/-- `n · base^e` as a fraction. -/
def scaled (n base : Nat) (e : Int) : Nat × Nat :=
  if 0 ≤ e then (n * Nat.pow base e.toNat, 1) else (n, Nat.pow base (-e).toNat)

/-- Whether `a ≤ b` for fractions. -/
def fractionLe (a b : Nat × Nat) : Bool := a.1 * b.2 ≤ b.1 * a.2

/-- Whether `a < b` for fractions. -/
def fractionLt (a b : Nat × Nat) : Bool := a.1 * b.2 < b.1 * a.2

/-- Whether a decimal rounds to the number. -/
def Binary.rounds (b : Binary) (d : Decimal) : Bool :=
  let quarter := b.exponent - 2
  let low := scaled (4 * b.mantissa - (if b.atPower then 1 else 2)) 2 quarter
  let high := scaled (4 * b.mantissa + 2) 2 quarter
  let value := scaled d.digits 10 d.exponent
  if b.mantissa % 2 = 0 then fractionLe low value && fractionLe value high
  else fractionLt low value && fractionLt value high

/-- The number of decimal digits of a natural number. -/
def digitCount (n : Nat) : Nat := (Nat.toDigits 10 n).length

/-- A decimal exponent `e` with 10^e at most the number, close to the largest one. -/
def Binary.magnitude (b : Binary) : Int :=
  let value := scaled b.mantissa 2 b.exponent
  let whole := value.1 / value.2
  if 0 < whole then (digitCount whole : Int) - 1
  else -(digitCount (value.2 / value.1) : Int)

/-- The nearer neighbour on the grid of multiples of 10^k that rounds to the number. -/
def Binary.neighbour? (b : Binary) (k : Int) : Option Decimal :=
  let value := scaled b.mantissa 2 b.exponent
  -- The number in units of 10^k is `top / bottom`.
  let unit := scaled 1 10 k
  let top := value.1 * unit.2
  let bottom := value.2 * unit.1
  let below : Decimal := { digits := top / bottom, exponent := k }
  let above : Decimal := { digits := top / bottom + 1, exponent := k }
  let nearer := 2 * (top % bottom) ≤ bottom
  match b.rounds below && below.digits ≠ 0, b.rounds above with
  | true, true => some (if nearer then below else above)
  | true, false => some below
  | false, true => some above
  | false, false => none

/-- Try grids of one digit more each time. -/
def Binary.search (b : Binary) (k : Int) : Nat → Decimal
  | 0 => { digits := b.mantissa, exponent := 0 }
  | tries + 1 =>
    match b.neighbour? k with
    | some d => d
    | none => b.search (k - 1) tries

/-- Write a decimal without zeros at its end. -/
def Decimal.reduce (d : Decimal) : Nat → Decimal
  | 0 => d
  | tries + 1 =>
    if d.digits ≠ 0 && d.digits % 10 = 0 then
      Decimal.reduce { digits := d.digits / 10, exponent := d.exponent + 1 } tries
    else d

/-- The shortest decimal that rounds to a finite number, without its sign. -/
def shortest (x : Float) : Decimal :=
  let b := Binary.ofFloat x
  if b.mantissa = 0 then { digits := 0, exponent := 0 }
  else (b.search (b.magnitude + 1) 20).reduce 400

/-! ## Written forms -/

/-- Whether the sign bit is set. -/
def isNegative (x : Float) : Bool := x.toBits.toNat ≥ Nat.pow 2 63

/-- The sign as it is written. -/
def sign (x : Float) : String := if isNegative x then "-" else ""

/-- `n` zeros. -/
def zeros (n : Nat) : String := String.ofList (List.replicate n '0')

/-- Digits with the point after the first `place` of them, filled up with zeros. -/
def pointed (digits : String) (place : Int) : String :=
  if place ≤ 0 then "0." ++ zeros (-place).toNat ++ digits
  else if place.toNat ≥ digits.length then digits ++ zeros (place.toNat - digits.length) ++ ".0"
  else String.ofList (digits.toList.take place.toNat) ++ "." ++
    String.ofList (digits.toList.drop place.toNat)

/-- A finite number without an exponent. -/
def positional (x : Float) : String :=
  let d := shortest x
  let digits := toString d.digits
  sign x ++
    (if d.digits = 0 then "0.0" else pointed digits ((digits.length : Int) + d.exponent))

/-- A finite number with an exponent where it has more than sixteen places before the point or
    five zeros behind it. -/
def compact (x : Float) : String :=
  let d := shortest x
  let digits := toString d.digits
  let place := (digits.length : Int) + d.exponent
  sign x ++
    (if d.digits = 0 then "0.0"
    else if -5 < place && place ≤ 16 then pointed digits place
    else
      let rest := String.ofList (digits.toList.drop 1)
      String.ofList (digits.toList.take 1) ++ (if rest = "" then "" else "." ++ rest) ++
        "e" ++ toString (place - 1))

end CommandLauncher.Number
