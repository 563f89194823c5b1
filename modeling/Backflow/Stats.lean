import Backflow.Liveness.Basic

namespace Backflow

/-- Figures of a graph and of the run that solved it. -/
structure Stats where
  blocks : Nat := 0
  edges : Nat := 0
  statements : Nat := 0
  deadBlocks : Nat := 0
  backEdges : Nat := 0
  visits : Nat := 0
deriving DecidableEq, Repr

namespace Stats

def ofGraph (g : Graph) : Stats where
  blocks := g.size
  edges := g.edges.length
  statements := g.statements.length
  deadBlocks := g.blocks.toList.countP (·.dead)
  backEdges := g.backEdges

def ofLiveness (l : Liveness) : Stats := { ofGraph l.graph with visits := l.iterations }

def add (s t : Stats) : Stats where
  blocks := s.blocks + t.blocks
  edges := s.edges + t.edges
  statements := s.statements + t.statements
  deadBlocks := s.deadBlocks + t.deadBlocks
  backEdges := s.backEdges + t.backEdges
  visits := s.visits + t.visits

def lines (s : Stats) : List String :=
  [s!"blocks:      {s.blocks}",
    s!"edges:       {s.edges}",
    s!"statements:  {s.statements}",
    s!"dead blocks: {s.deadBlocks}",
    s!"back edges:  {s.backEdges}",
    s!"visits:      {s.visits}"]

def text (s : Stats) : String := "\n".intercalate s.lines

end Stats

end Backflow
