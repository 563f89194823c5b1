import Backflow.Graph.Search

namespace Backflow

/-- In which order the blocks of a graph are first visited. -/
inductive Order where
  | postorder
  | reversed
  | byIndex
deriving DecidableEq, Repr

namespace Order

def all : List Order := [postorder, reversed, byIndex]

def name : Order → String
  | postorder => "postorder"
  | reversed => "rpo"
  | byIndex => "fifo"

def ofName? (name : String) : Option Order := all.find? (·.name = name)

/-- The message for a name that is no order's. -/
def unknown (name : String) : String :=
  s!"unknown worklist order `{name}` (expected one of: " ++
    ", ".intercalate (all.map Order.name) ++ ")"

end Order

namespace Graph

/-- The blocks in postorder from the entry, then those out of reach by index. -/
def allInPostorder (g : Graph) : List Nat :=
  let reached := g.postorder
  reached ++ g.indices.filter (!reached.contains ·)

/-- The blocks in the order of their first visit. -/
def worklist (g : Graph) : Order → List Nat
  | .postorder => g.allInPostorder
  | .reversed => g.allInPostorder.reverse
  | .byIndex => g.indices

end Graph

end Backflow
