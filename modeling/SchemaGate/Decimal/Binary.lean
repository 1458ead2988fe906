/-!
# Binary floating-point numbers

A finite double is a sign and a magnitude `significand * 2 ^ exponent`. `Dyadic.ofBits?` reads it
off the 64 bits. The main statement is `significand_lt`: a significand has at most 53 bits.
-/

namespace SchemaGate.Decimal

/-- The number `significand * 2 ^ exponent`, negated if `negative`. The number is `lowest` in its
binade if the next smaller double is only half as far away as the next larger one. -/
structure Dyadic where
  negative : Bool
  significand : Nat
  exponent : Int
  lowest : Bool
  deriving DecidableEq, Repr

/-- The fraction field of a double. -/
def fractionField (bits : UInt64) : Nat :=
  bits.toNat % 0x10000000000000

/-- The exponent field of a double. -/
def exponentField (bits : UInt64) : Nat :=
  bits.toNat / 0x10000000000000 % 0x800

/-- The number of a double, unless it is infinite or no number. -/
def Dyadic.ofBits? (bits : UInt64) : Option Dyadic :=
  let negative := decide (0x8000000000000000 ≤ bits.toNat)
  let fraction := fractionField bits
  let field := exponentField bits
  if field = 2047 then none
  else if field = 0 then some ⟨negative, fraction, -1074, false⟩
  else some ⟨negative, 0x10000000000000 + fraction, field - 1075, fraction = 0 ∧ 1 < field⟩

/-- The least number that is rounded to a double beyond all others: 54 bits set and 970 clear. -/
def doubleBound : Nat := 0x3FFFFFFFFFFFFF <<< 970

/-- A significand has at most 53 bits. -/
theorem significand_lt {bits : UInt64} {number : Dyadic} (h : Dyadic.ofBits? bits = some number) :
    number.significand < 0x20000000000000 := by
  have hfraction : fractionField bits < 0x10000000000000 := Nat.mod_lt _ (by decide)
  unfold Dyadic.ofBits? at h
  simp only at h
  split at h
  · exact absurd h (by simp)
  · split at h <;> cases h <;> simp only <;> omega

end SchemaGate.Decimal
