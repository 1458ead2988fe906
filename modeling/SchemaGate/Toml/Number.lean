import SchemaGate.Decimal.Binary
import SchemaGate.Text.Hex

/-!
# Numbers and dates in TOML

Numbers and dates are only recognised: a reader gives what follows one, or nothing if the text
begins with none or with one that is out of range. Integers have 64 bits and a sign, and a positive
number must not be beyond all doubles.
-/

namespace SchemaGate.Toml

/-- The digits at the beginning of a text, at least one, with single underscores between them left
out, and the rest. An underscore must be followed by a digit. -/
def readDigits? (isDigit : Char → Bool) : List Char → Option (List Char × List Char)
  | [] => none
  | c :: rest =>
      if isDigit c then
        match rest with
        | '_' :: after => do
            let (digits, rest) ← readDigits? isDigit after
            pure (c :: digits, rest)
        | d :: after =>
            if isDigit d then do
              let (digits, rest) ← readDigits? isDigit (d :: after)
              pure (c :: digits, rest)
            else some ([c], rest)
        | [] => some ([c], [])
      else none

/-- Whether a character is a digit in a base up to sixteen. -/
def isDigitOf (base : Nat) (c : Char) : Bool :=
  (Text.hexValue? c).any fun value => value < base

/-- The number of digits in a base. -/
def digitsValue (base : Nat) (digits : List Char) : Nat :=
  digits.foldl (fun n c => base * n + (Text.hexValue? c).getD 0) 0

/-- A sign, if there is one, and the rest. The flag is set by a minus. -/
def readSign : List Char → Bool × List Char
  | '-' :: rest => (true, rest)
  | '+' :: rest => (false, rest)
  | text => (false, text)

/-- The digits of a whole number; a zero stands alone. -/
def readWhole? : List Char → Option (List Char × List Char)
  | '0' :: rest => some (['0'], rest)
  | text => readDigits? (isDigitOf 10) text

/-- The bound of the integers of 64 bits with a sign. -/
def integerBound : Nat := 0x8000000000000000

/-- What follows digits in a base, if their number is in range. -/
def readInBase? (base : Nat) (text : List Char) : Option (List Char) := do
  let (digits, rest) ← readDigits? (isDigitOf base) text
  if digitsValue base digits < integerBound then pure rest else none

/-- What follows an integer. -/
def readInteger? : List Char → Option (List Char)
  | '0' :: 'x' :: rest => readInBase? 16 rest
  | '0' :: 'o' :: rest => readInBase? 8 rest
  | '0' :: 'b' :: rest => readInBase? 2 rest
  | text => do
      let (negative, rest) := readSign text
      let (digits, rest) ← readWhole? rest
      let n := digitsValue 10 digits
      if n < integerBound ∨ (negative ∧ n = integerBound) then pure rest else none

/-- The digits after a point, if there is one. -/
def readFraction? : List Char → Option (Option (List Char) × List Char)
  | '.' :: rest => (readDigits? (isDigitOf 10) rest).map fun (digits, rest) => (some digits, rest)
  | rest => some (none, rest)

/-- The exponent, if there is one. -/
def readExponent? : List Char → Option (Option Int × List Char)
  | 'e' :: rest | 'E' :: rest => do
      let (negative, rest) := readSign rest
      let (digits, rest) ← readDigits? (isDigitOf 10) rest
      let n : Int := digitsValue 10 digits
      pure (some (if negative then -n else n), rest)
  | rest => some (none, rest)

/-- Whether `significand * 10 ^ exponent` is beyond all doubles. No number of `length` digits is if
its exponent is below minus that length, and every other number than zero is if its exponent is
above 308. -/
def isBeyondDoubles (significand length : Nat) (exponent : Int) : Bool :=
  if significand = 0 then false
  else if 308 < exponent then true
  else if exponent < -(length : Int) then false
  else if 0 ≤ exponent then Decimal.doubleBound ≤ significand * Nat.pow 10 exponent.toNat
  else Decimal.doubleBound * Nat.pow 10 (-exponent).toNat ≤ significand

/-- What follows a number with a fraction or an exponent, or one of the words for infinity and for
no number. -/
def readFloat? (text : List Char) : Option (List Char) :=
  let (negative, rest) := readSign text
  match rest with
  | 'i' :: 'n' :: 'f' :: rest => some rest
  | 'n' :: 'a' :: 'n' :: rest => some rest
  | rest => do
      let (whole, rest) ← readWhole? rest
      let (fraction, rest) ← readFraction? rest
      let (exponent, rest) ← readExponent? rest
      if fraction.isNone ∧ exponent.isNone then none
      else
        let places := fraction.getD []
        let digits := whole ++ places
        let scale := exponent.getD 0 - places.length
        if !negative ∧ isBeyondDoubles (digitsValue 10 digits) digits.length scale then none
        else pure rest

/-- A number of exactly `count` digits between two bounds, and the rest. -/
def readField? (count low high : Nat) (text : List Char) : Option (Nat × List Char) :=
  let digits := text.take count
  let value := digitsValue 10 digits
  if digits.length = count ∧ digits.all (isDigitOf 10) ∧ low ≤ value ∧ value ≤ high then
    some (value, text.drop count)
  else none

/-- What follows a given character. -/
def readMark? (mark : Char) : List Char → Option (List Char)
  | c :: rest => if c = mark then some rest else none
  | [] => none

/-- How many days a month has. -/
def daysIn (year month : Nat) : Nat :=
  if month = 2 then if year % 4 = 0 ∧ (year % 100 ≠ 0 ∨ year % 400 = 0) then 29 else 28
  else if month = 4 ∨ month = 6 ∨ month = 9 ∨ month = 11 then 30
  else 31

/-- What follows a date. -/
def readDate? (text : List Char) : Option (List Char) := do
  let (year, rest) ← readField? 4 0 9999 text
  let (month, rest) ← readField? 2 1 12 (← readMark? '-' rest)
  let (_, rest) ← readField? 2 1 (daysIn year month) (← readMark? '-' rest)
  pure rest

/-- A text without the fraction of a second at its beginning. -/
def skipSecondFraction : List Char → List Char
  | '.' :: c :: rest =>
      if isDigitOf 10 c then rest.dropWhile (isDigitOf 10) else '.' :: c :: rest
  | text => text

/-- What follows a time of day. The last minute of a day may have one more second. -/
def readTime? (text : List Char) : Option (List Char) := do
  let (_, rest) ← readField? 2 0 23 text
  let (_, rest) ← readField? 2 0 59 (← readMark? ':' rest)
  let (_, rest) ← readField? 2 0 60 (← readMark? ':' rest)
  pure (skipSecondFraction rest)

/-- What follows an offset from universal time. -/
def readOffset? : List Char → Option (List Char)
  | 'Z' :: rest | 'z' :: rest => some rest
  | '+' :: rest | '-' :: rest => do
      let (_, rest) ← readField? 2 0 23 rest
      let (_, rest) ← readField? 2 0 59 (← readMark? ':' rest)
      pure rest
  | _ => none

/-- A text after a date without the time of day at its beginning. -/
def skipTime (text : List Char) : List Char :=
  match text with
  | mark :: rest =>
      if mark = 'T' ∨ mark = 't' ∨ mark = ' ' then
        match readTime? rest with
        | some rest => (readOffset? rest).getD rest
        | none => text
      else text
  | [] => []

/-- What follows a date, with a time of day or without, or a time of day alone. -/
def readDateTime? (text : List Char) : Option (List Char) :=
  match readDate? text with
  | some rest => some (skipTime rest)
  | none => readTime? text

end SchemaGate.Toml
