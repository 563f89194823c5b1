import Backflow.Liveness.Basic

namespace Backflow

/-- For each variable, the set of those that may not share a register with it. -/
structure Interference where
  vars : Numbering
  rows : List (VarSet vars.size)

namespace Liveness

/-- The live sets before statements and at the entries of blocks. -/
def liveSets (l : Liveness) : List (VarSet l.vars.size) :=
  l.flow.points.map (·.before) ++ l.flow.entries.toList

/-- The variables written, each with those live after the write. -/
def writes (l : Liveness) : List (Fin l.vars.size × VarSet l.vars.size) :=
  l.flow.points.flatMap fun p =>
    (p.stmt.defs.toList.filterMap l.vars.index?).map (·, p.after)

/-- The variables that are live together with `i`, or live after a write of `i`, or written while
`i` is live after that. -/
def conflicts (l : Liveness) (i : Fin l.vars.size) : VarSet l.vars.size :=
  let together := l.liveSets.foldl (fun r s => if s.contains i then r.union s else r) VarSet.empty
  let written := l.writes.foldl (fun r (d, after) =>
    if d = i then r.union after else if after.contains i then r.insert d else r) together
  written.erase i

def interference (l : Liveness) : Interference :=
  ⟨l.vars, List.ofFn l.conflicts⟩

end Liveness

namespace Interference

def row (g : Interference) (i : Nat) : VarSet g.vars.size := g.rows.getD i .empty

/-- The pairs of variables that interfere, each once. -/
def edges (g : Interference) : List (Nat × Nat) :=
  (List.range g.vars.size).flatMap fun i => ((g.row i).toList.filter (i < ·)).map (i, ·)

def edgeCount (g : Interference) : Nat := g.edges.length

def interferes (g : Interference) (a b : String) : Bool :=
  match g.vars.index? a, g.vars.index? b with
  | some i, some j => (g.row i).contains j
  | _, _ => false

def neighbors (g : Interference) (name : String) : NameSet :=
  match g.vars.index? name with
  | some i => g.vars.namesOf (g.row i)
  | none => ∅

end Interference

end Backflow
