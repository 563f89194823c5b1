import Backflow.Graph.Basic

namespace Backflow

namespace Search

theorem length_erase_lt {l : List Nat} {i : Nat} (h : i ∈ l) : (l.erase i).length < l.length := by
  have := List.length_pos_of_mem h
  rw [List.length_erase_of_mem h]
  omega

/-- Depth-first postorder. A node on the stack is either new, and then its new successors go above
it, or it is done when it comes up again. The last successor of a list is searched first. -/
def postorder (succ : Nat → List Nat) (unseen stack finished : List Nat) : List Nat :=
  match stack with
  | [] => finished.reverse
  | i :: below =>
    if i ∈ unseen then
      let unseen' := unseen.erase i
      let fresh := (succ i).filter (· ∈ unseen')
      postorder succ unseen' (fresh.reverse ++ i :: below) finished
    else if i ∈ finished then
      postorder succ unseen below finished
    else
      postorder succ unseen below (i :: finished)
termination_by (unseen.length, stack.length)
decreasing_by
  · rename_i h
    exact Prod.Lex.left _ _ (length_erase_lt h)
  · exact Prod.Lex.right _ (by simp)
  · exact Prod.Lex.right _ (by simp)

/-- The nodes of a path and the successors still to be tried on it. -/
def toTry : List (Nat × List Nat) → Nat
  | [] => 0
  | (_, js) :: above => js.length + 1 + toTry above

/-- The number of edges that lead back to a node on the path of a depth-first search. The path
lists, from its end to its start, nodes with those of their successors that are still to be tried. -/
def backEdges (succ : Nat → List Nat) (unseen : List Nat) (path : List (Nat × List Nat)) : Nat :=
  match path with
  | [] => 0
  | (_, []) :: above => backEdges succ unseen above
  | (i, j :: rest) :: above =>
    if j ∈ unseen then
      backEdges succ (unseen.erase j) ((j, succ j) :: (i, rest) :: above)
    else if j = i ∨ j ∈ above.map (·.1) then
      backEdges succ unseen ((i, rest) :: above) + 1
    else
      backEdges succ unseen ((i, rest) :: above)
termination_by (unseen.length, toTry path)
decreasing_by
  · exact Prod.Lex.right _ (by simp [toTry])
  · rename_i h
    exact Prod.Lex.left _ _ (length_erase_lt h)
  · exact Prod.Lex.right _ (by simp [toTry])
  · exact Prod.Lex.right _ (by simp [toTry])

end Search

namespace Graph

/-- The blocks that can be reached from the entry, in postorder. -/
def postorder (g : Graph) : List Nat := Search.postorder g.successors g.indices [entry] []

def reachable (g : Graph) : List Nat := g.inOrder g.postorder

/-- The edges that lead back in a depth-first search from every block, by index. The search starts
as if below a root with an edge to each block. -/
def backEdges (g : Graph) : Nat :=
  Search.backEdges g.successors g.indices [(g.size, g.indices)]

end Graph

end Backflow
