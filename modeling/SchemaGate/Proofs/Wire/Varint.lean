import Mathlib.Algebra.Group.Nat.Defs
import SchemaGate.Wire.Field

/-!
# Writing integers of variable length

`varint` writes a number in as few bytes as possible, seven bits to a byte and the low bits first.
The main statement is `readVarint?_varint`: the reader gets every number of 64 bits back, whatever
follows it.
-/

namespace SchemaGate.Wire

/-- The shortest form of a number. -/
def varint (n : Nat) : List UInt8 :=
  if n < 128 then [UInt8.ofNat n] else UInt8.ofNat (n % 128 + 128) :: varint (n / 128)

/-- A number below 128 is one byte. -/
theorem varint_of_lt {n : Nat} (h : n < 128) : varint n = [UInt8.ofNat n] := by
  rw [varint, if_pos h]

/-- The first byte of any other number says that another byte follows. -/
theorem varint_of_le {n : Nat} (h : 128 ≤ n) :
    varint n = UInt8.ofNat (n % 128 + 128) :: varint (n / 128) := by
  rw [varint, if_neg (by omega)]

/-- A number is read back if there may be as many digits as it has. -/
theorem readVarintDigits?_varint (scale : Nat) {most n : Nat} (h : n < 128 ^ (most + 1))
    (rest : List UInt8) :
    readVarintDigits? scale (most + 1) (varint n ++ rest) = some (n * scale, rest) := by
  induction most generalizing scale n with
  | zero =>
      rw [Nat.zero_add, Nat.pow_one] at h
      rw [varint_of_lt h, List.singleton_append, readVarintDigits?, UInt8.toNat_ofNat',
        Nat.mod_eq_of_lt (by omega), if_pos h]
  | succ most ih =>
      by_cases hn : n < 128
      · rw [varint_of_lt hn, List.singleton_append, readVarintDigits?, UInt8.toNat_ofNat',
          Nat.mod_eq_of_lt (by omega), if_pos hn]
      · have hrest : n / 128 < 128 ^ (most + 1) := by
          rw [Nat.pow_succ] at h
          omega
        have hvalue : (n % 128 + 128 - 128) * scale + n / 128 * (scale * 128) = n * scale := by
          rw [Nat.add_sub_cancel, Nat.mul_comm scale, ← Nat.mul_assoc, ← Nat.add_mul]
          congr 1
          omega
        rw [varint_of_le (by omega), List.cons_append, readVarintDigits?, UInt8.toNat_ofNat',
          Nat.mod_eq_of_lt (by omega), if_neg (by omega), ih (scale * 128) hrest]
        exact congrArg (fun value => some (value, rest)) hvalue

/-- A number of 64 bits is read back, whatever follows it. -/
theorem readVarint?_varint {n : Nat} (h : n < varintBound) (rest : List UInt8) :
    readVarint? (varint n ++ rest) = some (n, rest) := by
  have hdigits : n < 128 ^ 10 := Nat.lt_trans h (by decide)
  rw [readVarint?, readVarintDigits?_varint 1 hdigits, Nat.mul_one]
  exact if_pos h

end SchemaGate.Wire
