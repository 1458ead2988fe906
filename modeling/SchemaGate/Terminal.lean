import SchemaGate.Text.Split

/-!
# Styled text

Text for a terminal in a colour, bold or dimmed. A terminal without colours gets the bare text.
-/

namespace SchemaGate.Terminal

/-- The colours of text. -/
inductive Colour where
  | red
  | green
  | yellow
  | magenta
  | cyan
  | brightBlue
  deriving DecidableEq, Repr

/-- The number of a colour in a control sequence. -/
def Colour.code : Colour → String
  | red => "31"
  | green => "32"
  | yellow => "33"
  | magenta => "35"
  | cyan => "36"
  | brightBlue => "94"

/-- How text looks. -/
structure Style where
  bold : Bool := false
  dimmed : Bool := false
  colour : Option Colour := none
  deriving DecidableEq, Repr

/-- The control sequence that ends all styles. -/
def reset : String := "\x1b[0m"

namespace Style

/-- Text in a colour. -/
def coloured (colour : Colour) : Style := { colour := some colour }

/-- Bold text in a colour. -/
def boldColoured (colour : Colour) : Style := { bold := true, colour := some colour }

/-- The control sequence that begins a style. -/
def start (style : Style) : String :=
  let codes := (if style.bold then ["1"] else []) ++ (if style.dimmed then ["2"] else []) ++
    style.colour.toList.map Colour.code
  "\x1b[" ++ Text.join ";" codes ++ "m"

/-- A text in which the style begins anew after every end of styles; `skip` characters are left as
they are first. -/
def resume (style : Style) (skip : Nat) : List Char → List Char
  | [] => []
  | c :: rest =>
      match skip with
      | 0 =>
          if Text.startsWith reset.toList (c :: rest) then
            c :: resume style (reset.length - 1) rest
          else c :: resume style 0 rest
      | 1 => c :: (style.start.toList ++ resume style 0 rest)
      | skip + 2 => c :: resume style (skip + 1) rest

/-- A text in a style, if the terminal has colours. -/
def paint (style : Style) (colours : Bool) (text : String) : String :=
  if colours then style.start ++ String.ofList (style.resume 0 text.toList) ++ reset else text

end Style

end SchemaGate.Terminal
