import Backflow.Graph.Search
import Backflow.Graph.Error

namespace Backflow

/-- Control does not simply pass on to the next statement. -/
def Stmt.endsBlock : Stmt → Bool
  | .ifThen _ _ _ | .ifElse _ _ _ _ | .loop _ _ _ | .ret _ _ | .brk _ | .cont _ => true
  | _ => false

namespace Graph

def blockDefect? (g : Graph) (reachable : List Nat) (i : Nat) : Option Defect :=
  let b := g.block i
  if i != exit && reachable.contains i == b.dead then some (.deadFlag i)
  else if b.kind = .basic && b.stmts.isEmpty then some (.emptyBasic i)
  else if b.kind != .basic && !b.stmts.isEmpty then some (.fullSynthetic i)
  else (b.stmts.dropLast.find? (·.endsBlock)).map fun s => .earlyEnd s.id i

/-- The first defect of a graph. -/
def defect? (g : Graph) : Option Defect :=
  if !(g.incoming entry).isEmpty then some .entryHasPredecessors
  else if !(g.outgoing exit).isEmpty then some .exitHasSuccessors
  else g.indices.findSome? (g.blockDefect? g.reachable)

def check (g : Graph) : Except AnalysisError Unit :=
  match g.defect? with
  | some d => .error (.internal (.defect d))
  | none => .ok ()

end Graph

end Backflow
