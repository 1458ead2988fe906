/-!
# Cutting and joining text

Texts are cut as lists of characters and joined as strings. `splitOn` cuts at every separator,
`cutFirst?` and `cutLast?` at one of them, `dropPrefix?` and `dropSuffix?` remove an end, and
`afterFirst?` finds the leftmost occurrence of a part. The main statements are
`join_splitOn`, which says that no character is lost by a cut, and `dropPrefix?_eq_some_iff`.
-/

namespace SchemaGate.Text

/-- The pieces of a text between the occurrences of a separator. There is one more piece than there
are separators, so an empty text has one empty piece. -/
def splitOn (separator : Char) : List Char → List (List Char)
  | [] => [[]]
  | c :: rest =>
      if c = separator then [] :: splitOn separator rest
      else
        match splitOn separator rest with
        | [] => [[c]]
        | piece :: pieces => (c :: piece) :: pieces

/-- A text has at least one piece. -/
theorem splitOn_ne_nil (separator : Char) (text : List Char) : splitOn separator text ≠ [] := by
  cases text with
  | nil => simp [splitOn]
  | cons c rest =>
      unfold splitOn
      split
      · simp
      · split <;> simp

/-- Write pieces one after the other with a separator between neighbours. -/
def joinChars (separator : Char) : List (List Char) → List Char
  | [] => []
  | [piece] => piece
  | piece :: pieces => piece ++ separator :: joinChars separator pieces

/-- Joining the pieces of a text gives the text back. -/
theorem join_splitOn (separator : Char) (text : List Char) :
    joinChars separator (splitOn separator text) = text := by
  induction text with
  | nil => rfl
  | cons c rest ih =>
      unfold splitOn
      split
      · rename_i hc
        cases hs : splitOn separator rest with
        | nil => exact absurd hs (splitOn_ne_nil separator rest)
        | cons piece pieces => rw [hs] at ih; simp [joinChars, ih, hc]
      · cases hs : splitOn separator rest with
        | nil => exact absurd hs (splitOn_ne_nil separator rest)
        | cons piece pieces =>
            rw [hs] at ih
            cases pieces with
            | nil => simp_all [joinChars]
            | cons next others => simp_all [joinChars]

/-- The text before and after the first occurrence of a separator. -/
def cutFirst? (separator : Char) : List Char → Option (List Char × List Char)
  | [] => none
  | c :: rest =>
      if c = separator then some ([], rest)
      else (cutFirst? separator rest).map fun cut => (c :: cut.1, cut.2)

/-- The text before and after the last occurrence of a separator. -/
def cutLast? (separator : Char) : List Char → Option (List Char × List Char)
  | [] => none
  | c :: rest =>
      match cutLast? separator rest with
      | some (before, after) => some (c :: before, after)
      | none => if c = separator then some ([], rest) else none

/-- What follows a given beginning of a text, if the text begins with it. -/
def dropPrefix? : List Char → List Char → Option (List Char)
  | [], text => some text
  | _ :: _, [] => none
  | p :: ps, c :: cs => if p = c then dropPrefix? ps cs else none

/-- A beginning is dropped exactly when the text is that beginning followed by the result. -/
theorem dropPrefix?_eq_some_iff {start text rest : List Char} :
    dropPrefix? start text = some rest ↔ text = start ++ rest := by
  induction start generalizing text with
  | nil => simp [dropPrefix?]
  | cons p ps ih =>
      cases text with
      | nil => simp [dropPrefix?]
      | cons c cs =>
          by_cases h : p = c
          · simp [dropPrefix?, h, ih]
          · simp [dropPrefix?, h, Ne.symm h]

/-- What precedes a given end of a text, if the text ends with it. -/
def dropSuffix? (ending text : List Char) : Option (List Char) :=
  (dropPrefix? ending.reverse text.reverse).map List.reverse

/-- An end is dropped exactly when the text is the result followed by that end. -/
theorem dropSuffix?_eq_some_iff {ending text rest : List Char} :
    dropSuffix? ending text = some rest ↔ text = rest ++ ending := by
  unfold dropSuffix?
  rw [Option.map_eq_some_iff]
  constructor
  · rintro ⟨reversed, h, rfl⟩
    have := congrArg List.reverse (dropPrefix?_eq_some_iff.1 h)
    simpa using this
  · rintro rfl
    exact ⟨rest.reverse, dropPrefix?_eq_some_iff.2 (by simp), by simp⟩

/-- Whether a text begins with a given part. -/
def startsWith (start text : List Char) : Bool :=
  (dropPrefix? start text).isSome

/-- Whether a text ends with a given part. -/
def endsWith (ending text : List Char) : Bool :=
  (dropSuffix? ending text).isSome

/-- What follows the leftmost occurrence of a part in a text. -/
def afterFirst? (part : List Char) : List Char → Option (List Char)
  | [] => dropPrefix? part []
  | c :: cs =>
      match dropPrefix? part (c :: cs) with
      | some rest => some rest
      | none => afterFirst? part cs

/-- Write texts one after the other with a separator between neighbours. -/
def join (separator : String) : List String → String
  | [] => ""
  | [text] => text
  | text :: texts => text ++ separator ++ join separator texts

/-- The non-empty pieces of a text between separators. -/
def segments (separator : Char) (text : String) : List String :=
  ((splitOn separator text.toList).filter fun piece => !piece.isEmpty).map String.ofList

/-- A text followed by blanks up to a width in characters. -/
def padRight (width : Nat) (text : String) : String :=
  text ++ String.ofList (List.replicate (width - text.length) ' ')

end SchemaGate.Text
