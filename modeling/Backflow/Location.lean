namespace Backflow

/-- A place in a source text; lines and columns count from one. -/
structure Location where
  line : Nat
  col : Nat
deriving DecidableEq, Repr

namespace Location

def start : Location := ⟨1, 1⟩

/-- The place after one character: only a line feed begins a new line. -/
def step (l : Location) (c : Char) : Location :=
  if c = '\n' then ⟨l.line + 1, 1⟩ else ⟨l.line, l.col + 1⟩

def advance (l : Location) (cs : List Char) : Location := cs.foldl step l

/-- The line and the column as they are reported, in 32 bits each. -/
def numbers (l : Location) : UInt32 × UInt32 := (.ofNat l.line, .ofNat l.col)

def text (l : Location) : String := s!"{l.numbers.1}:{l.numbers.2}"

@[simp] theorem advance_nil (l : Location) : l.advance [] = l := rfl

@[simp] theorem advance_cons (l : Location) (c : Char) (cs : List Char) :
    l.advance (c :: cs) = (l.step c).advance cs := rfl

theorem advance_append (l : Location) (s t : List Char) :
    l.advance (s ++ t) = (l.advance s).advance t := by
  simp [advance]

end Location

end Backflow
