namespace Backflow.Text

/-- The parts of a text between the places where a mark stands. -/
def splitChars (mark : Char) : List Char → List (List Char)
  | [] => [[]]
  | c :: rest =>
    if c = mark then [] :: splitChars mark rest
    else match splitChars mark rest with
      | [] => [[c]]
      | part :: parts => (c :: part) :: parts

def split (mark : Char) (text : String) : List String :=
  (splitChars mark text.toList).map String.ofList

end Backflow.Text
