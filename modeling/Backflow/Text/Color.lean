namespace Backflow.Text

/-- Colours of a terminal. -/
inductive Color where
  | red
  | green
  | cyan
deriving DecidableEq, Repr

def Color.code : Color → Nat
  | red => 31
  | green => 32
  | cyan => 36

/-- A text in a colour, after which the terminal goes back to its own. -/
def Color.paint (c : Color) (text : String) : String := s!"\x1b[{c.code}m{text}\x1b[0m"

def Color.paintIf (c : Color) (on : Bool) (text : String) : String :=
  if on then c.paint text else text

end Backflow.Text
