import SchemaGate.Decimal.Shortest

/-!
# Doubles in JSON

A double is written with the fewest digits that read back, always with a decimal point or an
exponent. Numbers from `1e-5` up to below `1e16` are positional. What is no number has no JSON text
and is written as null.
-/

namespace SchemaGate.Json

/-- The least position of the decimal point, counted from the first digit, that is written
positionally; it lies below the greatest one by the length of the longest positional text. -/
def leastPoint : Int := -5

/-- The greatest position of the decimal point that is written positionally. -/
def greatestPoint : Int := 16

/-- Digits with a point after the first and an exponent. -/
def scientific (digits : List Char) (exponent : Int) : List Char :=
  match digits with
  | [] => []
  | [digit] => digit :: 'e' :: (toString exponent).toList
  | digit :: others => digit :: '.' :: others ++ 'e' :: (toString exponent).toList

/-- The text of a decimal. -/
def layout (decimal : Decimal.Numeral) : List Char :=
  let digits := (toString decimal.digits).toList
  let point := digits.length + decimal.exponent
  if decimal.digits = 0 then ['0', '.', '0']
  else if 0 ≤ decimal.exponent ∧ point ≤ greatestPoint then
    digits ++ List.replicate decimal.exponent.toNat '0' ++ ['.', '0']
  else if 0 < point ∧ point ≤ greatestPoint then
    digits.take point.toNat ++ '.' :: digits.drop point.toNat
  else if leastPoint < point ∧ point ≤ 0 then
    '0' :: '.' :: List.replicate (-point).toNat '0' ++ digits
  else scientific digits (point - 1)

/-- The text of a double. -/
def floatText (bits : UInt64) : List Char :=
  match Decimal.Dyadic.ofBits? bits with
  | some number => (if number.negative then ['-'] else []) ++ layout (Decimal.shortest number)
  | none => "null".toList

end SchemaGate.Json
