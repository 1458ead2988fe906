import SchemaGate.Decimal.Binary

/-!
# Decimals with a fixed number of places

`withOnePlace` writes a double with one place after the point, rounded from its exact value, where a
half goes to the even neighbour. The main statement is `roundDiv_nearest`: a rounded quotient is off
by no more than a half.
-/

namespace SchemaGate.Decimal

/-- A quotient rounded to the nearest natural number, a half to the even neighbour. -/
def roundDiv (numerator denominator : Nat) : Nat :=
  let quotient := numerator / denominator
  let twice := 2 * (numerator % denominator)
  if twice < denominator then quotient
  else if denominator < twice then quotient + 1
  else if quotient % 2 = 0 then quotient
  else quotient + 1

/-- A rounded quotient is off by at most a half, and if it is off by a half it is even. -/
theorem roundDiv_nearest {numerator denominator : Nat} (h : 0 < denominator) :
    2 * numerator ≤ (2 * roundDiv numerator denominator + 1) * denominator ∧
      2 * roundDiv numerator denominator * denominator ≤ 2 * numerator + denominator ∧
      (2 * numerator = (2 * roundDiv numerator denominator + 1) * denominator ∨
        2 * roundDiv numerator denominator * denominator = 2 * numerator + denominator →
          roundDiv numerator denominator % 2 = 0) := by
  have hparts : numerator / denominator * denominator + numerator % denominator = numerator := by
    rw [Nat.mul_comm]
    exact Nat.div_add_mod numerator denominator
  have hrest := Nat.mod_lt numerator h
  unfold roundDiv
  -- Only the quotient, the rest and their product with the denominator matter from here on.
  generalize numerator / denominator = quotient at hparts ⊢
  generalize numerator % denominator = rest at hparts hrest ⊢
  simp only [Nat.add_mul, Nat.mul_assoc]
  split
  · omega
  · split
    · simp only [Nat.add_mul]
      omega
    · split
      · omega
      · simp only [Nat.add_mul]
        omega

/-- The magnitude of a double in tenths, rounded. -/
def Dyadic.tenths (number : Dyadic) : Nat :=
  if 0 ≤ number.exponent then (10 * number.significand) <<< number.exponent.toNat
  else roundDiv (10 * number.significand) (1 <<< (-number.exponent).toNat)

/-- A double with one place after the point. -/
def withOnePlace (number : Dyadic) : String :=
  (if number.negative then "-" else "") ++ toString (number.tenths / 10) ++ "." ++
    toString (number.tenths % 10)

end SchemaGate.Decimal
