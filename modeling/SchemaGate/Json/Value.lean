/-!
# JSON values

`Value` is what the program writes. Objects keep the order in which their members are given. `depth`
counts how deeply arrays and objects are nested.
-/

namespace SchemaGate.Json

/-- A JSON value. A number is an integer or a double, given by its bits. -/
inductive Value where
  | null
  | bool (value : Bool)
  | int (value : Int)
  | float (bits : UInt64)
  | str (text : String)
  | arr (items : List Value)
  | obj (members : List (String × Value))
  deriving Inhabited

namespace Value

mutual

/-- How many arrays and objects are nested inside one another. -/
def depth : Value → Nat
  | null | bool _ | int _ | float _ | str _ => 0
  | arr items => depthItems items + 1
  | obj members => depthMembers members + 1

/-- The greatest depth of several values. -/
def depthItems : List Value → Nat
  | [] => 0
  | item :: items => max item.depth (depthItems items)

/-- The greatest depth of the values of several members. -/
def depthMembers : List (String × Value) → Nat
  | [] => 0
  | (_, value) :: members => max value.depth (depthMembers members)

end

end Value

/-- The member of a key if there is a value for it. -/
def memberIf {α : Type} (key : String) (write : α → Value) : Option α → List (String × Value)
  | some value => [(key, write value)]
  | none => []

/-- The member of a key for a list that is not empty. -/
def memberIfAny {α : Type} (key : String) (write : α → Value) : List α → List (String × Value)
  | [] => []
  | items => [(key, .arr (items.map write))]

end SchemaGate.Json
