import SchemaGate.Text.CaseTable

/-!
# Lower case

`toLower` is the full Unicode mapping to lower case. Two letters need more than a table: the capital
I with a dot becomes two characters, and a capital sigma at the end of a word becomes a final sigma.
-/

namespace SchemaGate.Text

/-- The lower case of a character that has a single one, and any other character itself. -/
def lowerChar (c : Char) : Char :=
  match lowerRuns.find? fun run =>
      run.1 ≤ c.toNat && c.toNat ≤ run.2.1 && (c.toNat - run.1) % run.2.2.1 == 0 with
  | some (first, _, _, target) => Char.ofNat (c.toNat - first + target)
  | none => c

/-- Whether the first character that is not ignorable is cased. -/
def leadsToCased (text : List Char) : Bool :=
  match text.dropWhile (inRanges ignorableRanges) with
  | [] => false
  | c :: _ => inRanges casedRanges c

/-- The lower case of a text; `before` is the text before it, the nearest character first. -/
def lowerFrom (before : List Char) : List Char → List Char
  | [] => []
  | c :: rest =>
      (if c = '\u0130' then ['i', '\u0307']
        else if c = '\u03A3' then
          if leadsToCased before && !leadsToCased rest then ['\u03C2'] else ['\u03C3']
        else [lowerChar c]) ++
        lowerFrom (c :: before) rest

/-- The lower case of a text. -/
def toLower (text : String) : String :=
  String.ofList (lowerFrom [] text.toList)

end SchemaGate.Text
