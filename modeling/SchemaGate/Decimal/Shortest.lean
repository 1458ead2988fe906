import SchemaGate.Decimal.Binary

/-!
# The shortest decimal of a double

Of the decimals that read back as a given double, `shortest` is one with the fewest digits, and of
those the nearest to the double. Decimals of a given number of digits form a grid; on each grid only
the two neighbours of the double have to be looked at, and the first grid with a hit is taken. All
arithmetic is exact: a double is a quotient of natural numbers.
-/

namespace SchemaGate.Decimal

/-- The number `digits * 10 ^ exponent`. -/
structure Numeral where
  digits : Nat
  exponent : Int
  deriving DecidableEq, Repr

/-- A quotient of natural numbers. -/
structure Ratio where
  numerator : Nat
  denominator : Nat

/-- A natural number times a power of two. -/
def Ratio.scaled (factor : Nat) (exponent : Int) : Ratio :=
  if 0 ≤ exponent then ⟨factor <<< exponent.toNat, 1⟩
  else ⟨factor, 1 <<< (-exponent).toNat⟩

/-- A quotient divided by a power of ten. -/
def Ratio.perPowerOfTen (ratio : Ratio) (exponent : Int) : Ratio :=
  if 0 ≤ exponent then ⟨ratio.numerator, ratio.denominator * Nat.pow 10 exponent.toNat⟩
  else ⟨ratio.numerator * Nat.pow 10 (-exponent).toNat, ratio.denominator⟩

/-- How many decimal digits a number has; zero has none. -/
def digitCount (n : Nat) : Nat :=
  if n = 0 then 0 else (Nat.toDigits 10 n).length

/-- The power of ten of the first digit of a positive quotient. -/
def Ratio.leadingExponent (ratio : Ratio) : Int :=
  if ratio.denominator ≤ ratio.numerator then
    digitCount (ratio.numerator / ratio.denominator) - 1
  else
    -(digitCount ((ratio.denominator - 1) / ratio.numerator) : Int)

/-- The decimals that round to a double: those between two bounds, which count themselves if the
significand is even. Value and bounds are given in quarters of the last binary place. -/
structure RoundingInterval where
  lower : Nat
  value : Nat
  upper : Nat
  exponent : Int
  closed : Bool

/-- The rounding interval of a double's magnitude. -/
def Dyadic.interval (number : Dyadic) : RoundingInterval :=
  let value := 4 * number.significand
  { lower := if number.lowest then value - 1 else value - 2
    value
    upper := value + 2
    exponent := number.exponent - 2
    closed := number.significand % 2 = 0 }

/-- Whether the decimal `digits * 10 ^ exponent` is in a rounding interval. -/
def RoundingInterval.holds (interval : RoundingInterval) (digits : Nat) (exponent : Int) : Bool :=
  let lower := (Ratio.scaled interval.lower interval.exponent).perPowerOfTen exponent
  let upper := (Ratio.scaled interval.upper interval.exponent).perPowerOfTen exponent
  if interval.closed then
    lower.numerator ≤ digits * lower.denominator && digits * upper.denominator ≤ upper.numerator
  else
    lower.numerator < digits * lower.denominator && digits * upper.denominator < upper.numerator

/-- The nearer of `below` and `below + 1` to a quotient; a tie goes to the even one. -/
def closer (ratio : Ratio) (below : Nat) : Nat :=
  let twice := 2 * ratio.numerator
  let middle := (2 * below + 1) * ratio.denominator
  if twice < middle then below
  else if middle < twice then below + 1
  else if below % 2 = 0 then below
  else below + 1

/-- The decimal of a grid in the rounding interval, the nearer one if there are two. -/
def onGrid? (interval : RoundingInterval) (exponent : Int) : Option Numeral :=
  let ratio := (Ratio.scaled interval.value interval.exponent).perPowerOfTen exponent
  let below := ratio.numerator / ratio.denominator
  match interval.holds below exponent, interval.holds (below + 1) exponent with
  | true, true => some ⟨closer ratio below, exponent⟩
  | true, false => some ⟨below, exponent⟩
  | false, true => some ⟨below + 1, exponent⟩
  | false, false => none

/-- A decimal with the zeros at the end of its digits moved into the exponent; at most `fuel` of
them. -/
def Numeral.withoutZeros (fuel : Nat) (decimal : Numeral) : Numeral :=
  match fuel with
  | 0 => decimal
  | fuel + 1 =>
      if decimal.digits ≠ 0 ∧ decimal.digits % 10 = 0 then
        withoutZeros fuel ⟨decimal.digits / 10, decimal.exponent + 1⟩
      else decimal

/-- The shortest decimal of a double's magnitude. Seventeen digits always suffice. -/
def shortest (number : Dyadic) : Numeral :=
  if number.significand = 0 then ⟨0, 0⟩
  else
    let interval := number.interval
    let leading := (Ratio.scaled interval.value interval.exponent).leadingExponent
    match (List.range 17).findSome? fun (n : Nat) => onGrid? interval (leading - n) with
    | some decimal => decimal.withoutZeros 17
    | none => ⟨number.significand, number.exponent⟩

end SchemaGate.Decimal
