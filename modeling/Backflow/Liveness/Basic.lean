import Backflow.Dataflow.Solver
import Backflow.Graph.Builder
import Backflow.Graph.Dot
import Backflow.Liveness.LiveMap
import Backflow.Liveness.Numbering

namespace Backflow

namespace Numbering

def lookup (n : Numbering) (s : Stmt) (name : String) : Except AnalysisError (Fin n.size) :=
  match n.index? name with
  | some i => .ok i
  | none => .error (.internal (.unnumbered name s.id))

/-- The live variables before a statement, from those after it: what the statement writes goes out
before what it reads comes in. -/
def transfer (n : Numbering) (s : Stmt) (after : VarSet n.size) :
    Except AnalysisError (VarSet n.size) := do
  let killed ← s.defs.toList.foldlM (fun v x => return v.erase (← n.lookup s x)) after
  s.uses.toList.foldlM (fun v x => return v.insert (← n.lookup s x)) killed

/-- Live variables as a backward problem. -/
def problem (n : Numbering) : Problem Unit (VarSet n.size) where
  bottom := return .empty
  join a b := return a.union b
  transfer s v := Problem.lift (n.transfer s v)
  includes := VarSet.includes
  text := VarSet.text

/-- Each block's entry can grow at most once per variable, and then its predecessors are visited. -/
def budget (n : Numbering) (g : Graph) : Nat := g.size + n.size * g.edges.length

def solve (n : Numbering) (g : Graph) (o : Options) (seed : Seed (VarSet n.size)) :
    Except AnalysisError (Solution (VarSet n.size)) :=
  match n.problem.solve g o seed (n.budget g) () with
  | .ok f _ => .ok f
  | .error e _ => .error e

end Numbering

/-- The live variables of a method at each block and statement of its graph. -/
structure Liveness where
  method : Method
  graph : Graph
  vars : Numbering
  flow : Solution (VarSet vars.size)

/-- An assignment whose value is never read. -/
structure DeadStore where
  stmt : Stmt
  var : String
  /-- The assignment itself is never executed. -/
  unreachable : Bool

namespace Liveness

def compute (m : Method) (o : Options) : Except AnalysisError Liveness := do
  let g ← Graph.build m
  let vars := Numbering.ofMethod m
  let flow ← vars.solve g o {}
  return ⟨m, g, vars, flow⟩

/-- Solves again from the states reached before. -/
def recompute (l : Liveness) (o : Options) : Except AnalysisError Liveness := do
  let flow ← l.vars.solve l.graph o l.flow.seed
  return { l with flow }

/-- The states of the blocks as a seed under a numbering of another size. -/
def seedFor (l : Liveness) (n : Nat) : Seed (VarSet n) where
  entry? i := l.flow.entries[i]?.map (·.resize n)
  exit? i := l.flow.exits[i]?.map (·.resize n)

def iterations (l : Liveness) : Nat := l.flow.iterations

def liveIn (l : Liveness) (block : Nat) : NameSet :=
  (l.flow.entries[block]?.map l.vars.namesOf).getD ∅

def liveOut (l : Liveness) (block : Nat) : NameSet :=
  (l.flow.exits[block]?.map l.vars.namesOf).getD ∅

def liveBefore? (l : Liveness) (id : Nat) : Option NameSet :=
  (l.flow.before? id).map l.vars.namesOf

def liveAfter? (l : Liveness) (id : Nat) : Option NameSet :=
  (l.flow.after? id).map l.vars.namesOf

/-- The variables live before each statement. -/
def map (l : Liveness) : LiveMap :=
  .ofList (l.flow.points.map fun p => (p.stmt.id, l.vars.namesOf p.before))

/-- Whether a variable is live after a statement. -/
def isLiveAfter (l : Liveness) (id : Nat) (name : String) : Bool :=
  match l.vars.index? name, l.flow.after? id with
  | some i, some v => v.contains i
  | _, _ => false

def deadStore? (l : Liveness) (dead : Bool) : Stmt → Option DeadStore
  | .assign t x e =>
    if l.isLiveAfter t.id x then none else some ⟨.assign t x e, x, dead⟩
  | _ => none

/-- The assignments whose value is never read, by statement number. -/
def deadStores (l : Liveness) : List DeadStore :=
  let stores := l.graph.blocks.toList.flatMap fun b => b.stmts.filterMap (l.deadStore? b.dead)
  stores.mergeSort fun a b => a.stmt.id ≤ b.stmt.id

def namesText (s : NameSet) : String := "\x7b" ++ ", ".intercalate s.toList ++ "\x7d"

def blockText (l : Liveness) (i : Nat) : String :=
  let b := l.graph.block i
  let body := match b.kind with
    | .basic => b.stmts.map fun s => Block.idColumn s ++ ": " ++ s.header
    | _ => [b.text]
  s!"block {i}" ++ (if b.dead then " (dead)" else "") ++ "\n" ++
    "  IN:  " ++ namesText (l.liveIn i) ++ "\n" ++
    String.join (body.map fun line => "  " ++ line ++ "\n") ++
    "  OUT: " ++ namesText (l.liveOut i) ++ "\n"

/-- The blocks with their statements and live variables. -/
def text (l : Liveness) : String := String.join (l.graph.indices.map l.blockText)

/-- A drawing of the graph with the live variables at both ends of each block. -/
def dot (l : Liveness) : String :=
  l.graph.dot fun i =>
    some ("IN: " ++ namesText (l.liveIn i) ++ "\nOUT: " ++ namesText (l.liveOut i))

end Liveness

/-- The live variables before each statement of a program. -/
def Program.liveMap (p : Program) (o : Options) : Except AnalysisError LiveMap :=
  p.routines.foldlM (fun m r => do m.merge (← Liveness.compute r.method o).map) .empty

end Backflow
