/-!
# Reserved numbers and names

A message or enum may reserve numbers, as inclusive ranges, and names. The main statement is
`reservesNumber_iff`: a number is reserved exactly when one of the ranges holds it.
-/

namespace SchemaGate

/-- The highest number a field may have. -/
def maxFieldTag : Int := 536870911

/-- The lowest field number that the wire format keeps for itself. -/
def firstImplementationTag : Int := 19000

/-- The highest field number that the wire format keeps for itself. -/
def lastImplementationTag : Int := 19999

/-- The inclusive range of reserved numbers from `start` to `stop`. It is empty if the numbers stand
in the wrong order. -/
structure ReservedRange where
  start : Int32
  stop : Int32
  deriving DecidableEq, Repr, Inhabited

namespace ReservedRange

/-- The range of one number. -/
def single (number : Int32) : ReservedRange := ⟨number, number⟩

/-- Whether a number lies in the range. -/
def contains (range : ReservedRange) (number : Int) : Bool :=
  decide (range.start.toInt ≤ number ∧ number ≤ range.stop.toInt)

/-- Whether the range holds no number. -/
def isEmpty (range : ReservedRange) : Bool :=
  decide (range.stop.toInt < range.start.toInt)

/-- The range as schema text writes it. The highest number of a field and the highest number of an
enum are both written `max`. -/
def text (range : ReservedRange) : String :=
  if range.start = range.stop then toString range.start.toInt
  else if range.stop.toInt = maxFieldTag ∨ range.stop = Int32.maxValue then
    toString range.start.toInt ++ " to max"
  else toString range.start.toInt ++ " to " ++ toString range.stop.toInt

/-- A number lies in a range exactly when it is between its ends. -/
@[simp] theorem contains_iff {range : ReservedRange} {number : Int} :
    range.contains number = true ↔ range.start.toInt ≤ number ∧ number ≤ range.stop.toInt := by
  simp [contains]

end ReservedRange

/-- The numbers and names that a type keeps from being used. -/
structure Reservations where
  ranges : List ReservedRange := []
  names : List String := []
  deriving DecidableEq, Repr, Inhabited

namespace Reservations

/-- The first range that holds a number. -/
def rangeContaining? (reserved : Reservations) (number : Int) : Option ReservedRange :=
  reserved.ranges.find? (·.contains number)

/-- Whether a number is reserved. -/
def reservesNumber (reserved : Reservations) (number : Int) : Bool :=
  (reserved.rangeContaining? number).isSome

/-- Whether a name is reserved. -/
def reservesName (reserved : Reservations) (name : String) : Bool :=
  reserved.names.any fun other => other = name

/-- Whether nothing is reserved. -/
def isEmpty (reserved : Reservations) : Bool :=
  reserved.ranges.isEmpty && reserved.names.isEmpty

/-- The reservations with one more range. -/
def addRange (reserved : Reservations) (range : ReservedRange) : Reservations :=
  { reserved with ranges := reserved.ranges ++ [range] }

/-- The reservations with one more name. -/
def addName (reserved : Reservations) (name : String) : Reservations :=
  { reserved with names := reserved.names ++ [name] }

/-- A number is reserved exactly when one of the ranges holds it. -/
theorem reservesNumber_iff {reserved : Reservations} {number : Int} :
    reserved.reservesNumber number = true ↔ ∃ range ∈ reserved.ranges, range.contains number := by
  simp [reservesNumber, rangeContaining?, List.find?_isSome]

/-- A name is reserved exactly when it is listed. -/
theorem reservesName_iff {reserved : Reservations} {name : String} :
    reserved.reservesName name = true ↔ name ∈ reserved.names := by
  simp [reservesName]

end Reservations

end SchemaGate
