/-!
# White space

Two sets of blank characters and the removal of blanks at the ends of a text. `isBlank` is the
Unicode property `White_Space`; `isAsciiBlank` is its ASCII part without the vertical tab. The main
statement is `trim_eq_self`, which says that a text without outer blanks is left alone.
-/

namespace SchemaGate.Text

/-- The characters with the Unicode property `White_Space`. -/
def isBlank (c : Char) : Bool :=
  let n := c.toNat
  (0x09 ≤ n && n ≤ 0x0D) || n == 0x20 || n == 0x85 || n == 0xA0 || n == 0x1680 ||
    (0x2000 ≤ n && n ≤ 0x200A) || n == 0x2028 || n == 0x2029 || n == 0x202F || n == 0x205F ||
    n == 0x3000

/-- The bytes that separate words in ASCII text: space, tab, line feed, form feed and carriage
return. -/
def isAsciiBlank (byte : UInt8) : Bool :=
  byte == 0x20 || byte == 0x09 || byte == 0x0A || byte == 0x0C || byte == 0x0D

/-- A text without the blanks at its beginning. -/
def trimStart (text : List Char) : List Char :=
  text.dropWhile isBlank

/-- A text without the blanks at its end. -/
def trimEnd (text : List Char) : List Char :=
  (text.reverse.dropWhile isBlank).reverse

/-- A text without the blanks at its two ends. -/
def trim (text : List Char) : List Char :=
  trimEnd (trimStart text)

/-- A text whose first and last characters are no blanks is left alone. -/
theorem trim_eq_self {text : List Char} (hfirst : ∀ c ∈ text.head?, isBlank c = false)
    (hlast : ∀ c ∈ text.getLast?, isBlank c = false) : trim text = text := by
  have hstart : trimStart text = text := by
    cases text with
    | nil => rfl
    | cons c rest => simp [trimStart, hfirst c (by simp)]
  unfold trim
  rw [hstart]
  unfold trimEnd
  rw [← List.head?_reverse] at hlast
  cases hr : text.reverse with
  | nil => simp_all
  | cons c rest =>
      rw [hr] at hlast
      rw [List.dropWhile_cons, hlast c (by simp)]
      simp [← hr]

end SchemaGate.Text
