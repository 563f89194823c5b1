import Backflow.Command.Journal
import Backflow.Report.Live
import Backflow.Report.Selection

namespace Backflow

/-- The messages of reading a text with all its tokens, the end of the text among them. -/
def TokenStream.progress (s : TokenStream) : List Message :=
  [⟨.trace, .tokens, s!"{s.tokens.length + 1} tokens"⟩]

/-- The messages on a program that has been read. -/
def Program.progress (p : Program) (name : String) : List Message :=
  [⟨.debug, .grammar, s!"parsed {p.classes.length} classes"⟩,
    ⟨.debug, .source, s!"{name}: {p.classes.length} classes, {p.routines.length} methods"⟩]

def Selection.progress (s : Selection) : List Message :=
  [⟨.debug, .source, s!"filtering on class pattern {describe s.onClass}, " ++
    s!"method pattern {describe s.onMethod}"⟩]

def Graph.progress (g : Graph) (name : String) : List Message :=
  let dead := g.indices.filter fun i => (g.block i).dead
  dead.map (fun i => ⟨.debug, .graph, s!"block {i} is dead code"⟩) ++
    [⟨.debug, .graph, s!"cfg of {name}: {g.size} blocks, {g.edges.length} edges"⟩]

def Interference.progress (g : Interference) (name : String) : List Message :=
  [⟨.debug, .registers,
    s!"interference graph of {name}: {g.vars.size} variables, {g.edgeCount} edges"⟩]

namespace Liveness

/-- The messages of one visit: both states of the block. -/
def visited (l : Liveness) (v : Visit (VarSet l.vars.size)) : List Message :=
  let size := (l.graph.stmts v.block).length
  [s!"    ---- block {v.block} ({size} statements)",
    "    -- EXIT STATE:", "      " ++ v.exit.text,
    "    -- ENTRY STATE:", "      " ++ v.entry.text, ""].map (⟨.debug, .solver, ·⟩)

/-- The messages on one statement: both states around it. -/
def refined (l : Liveness) (p : Point (VarSet l.vars.size)) : List Message :=
  [s!"transfer_stmt( {p.stmt.header} )", "    after: " ++ p.after.text,
    "    before: " ++ p.before.text].map (⟨.trace, .solver, ·⟩)

/-- The points of a block from its last statement to its first. -/
def pointsBackward (l : Liveness) (i : Nat) : List (Point (VarSet l.vars.size)) :=
  (l.graph.stmts i).reverse.filterMap fun s => l.flow.point? s.id

def solved (l : Liveness) : List Message :=
  if l.graph.statements.isEmpty then [⟨.debug, .solver, "no statement, nothing to solve"⟩]
  else
    l.flow.visits.flatMap l.visited ++
      [⟨.debug, .solver, s!"fixpoint reached after {l.iterations} iterations"⟩] ++
      l.graph.indices.flatMap fun i => (l.pointsBackward i).flatMap l.refined

/-- The messages of an analysis, from the graph to the states of the statements. -/
def progress (l : Liveness) : List Message :=
  l.graph.progress l.method.name ++
    [⟨.debug, .liveness, s!"{l.vars.size} variables in {l.method.name}"⟩] ++ l.solved

end Liveness

namespace Analyzed

def progress (a : Analyzed) : List Message :=
  ⟨.info, .source, s!"analyzing {a.routine.name}"⟩ ::
    match a.result with
    | .ok l => l.progress
    | .error _ => []

/-- The messages on what became of a list of methods. -/
def summary (as : List Analyzed) : List Message :=
  let errors := as.filterMap fun a => a.error?.map fun e =>
    ⟨.error, .source, s!"{a.routine.name}: {e.message}"⟩
  errors ++ [⟨.info, .source, s!"analyzed methods: {as.length - failed as} / {as.length}"⟩]

end Analyzed

end Backflow
