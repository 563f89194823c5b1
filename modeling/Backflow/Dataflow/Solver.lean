import Backflow.Dataflow.Order
import Backflow.Dataflow.Problem

namespace Backflow

structure Options where
  order : Order := .postorder
  /-- Check the graph before solving. -/
  check : Bool := true

/-- States of blocks to start from; a block without one starts from bottom. -/
structure Seed (S : Type) where
  entry? : Nat → Option S := fun _ => none
  exit? : Nat → Option S := fun _ => none

/-- What one visit of a block computed. -/
structure Visit (S : Type) where
  block : Nat
  exit : S
  entry : S

/-- The states of blocks and statements that a solver has settled on, and its visits in order. -/
structure Solution (S : Type) where
  entries : Array S
  exits : Array S
  points : List (Point S)
  visits : List (Visit S)

namespace Solution

variable {S : Type}

def iterations (f : Solution S) : Nat := f.visits.length

def point? (f : Solution S) (id : Nat) : Option (Point S) := f.points.find? (·.stmt.id = id)

def before? (f : Solution S) (id : Nat) : Option S := (f.point? id).map (·.before)

def after? (f : Solution S) (id : Nat) : Option S := (f.point? id).map (·.after)

def seed (f : Solution S) : Seed S := ⟨(f.entries[·]?), (f.exits[·]?)⟩

end Solution

namespace Solver

variable {σ S : Type} [DecidableEq S]

/-- The states of the blocks, the blocks waiting for a visit, and the visits made, newest first. -/
structure State (S : Type) where
  entries : Array S
  exits : Array S
  queue : List Nat
  visits : List (Visit S)

/-- Puts blocks at the end of a queue, unless they wait already. -/
def enqueue (queue : List Nat) : List Nat → List Nat
  | [] => queue
  | i :: rest => enqueue (if i ∈ queue then queue else queue ++ [i]) rest

/-- Visits a block: its exit is the join of its successors' entries, its entry is that exit carried
back through its statements. Neither may fall below what it was. If the entry has changed, the
predecessors have to be visited again. -/
def visit (p : Problem σ S) (g : Graph) (bottom : S) (s : State S) (i : Nat) (queue : List Nat) :
    EStateM AnalysisError σ (State S) := do
  let exit ← p.joinAll bottom ((g.successors i).map (s.entries.getD · bottom))
  let oldExit := s.exits.getD i bottom
  unless p.includes exit oldExit do
    throw (.internal (.exitDecreased i (p.text oldExit) (p.text exit)))
  let entry ← p.before (g.stmts i) exit
  let oldEntry := s.entries.getD i bottom
  unless p.includes entry oldEntry do
    throw (.internal (.entryDecreased i (p.text oldEntry) (p.text entry)))
  return {
    entries := s.entries.setIfInBounds i entry
    exits := s.exits.setIfInBounds i exit
    queue := if entry = oldEntry then queue else enqueue queue (g.predecessors i)
    visits := ⟨i, exit, entry⟩ :: s.visits }

/-- Visits blocks until none waits; there is no answer if that takes more than `budget` visits. -/
def run (p : Problem σ S) (g : Graph) (bottom : S) :
    Nat → State S → EStateM AnalysisError σ (Option (State S))
  | budget, s =>
    match s.queue with
    | [] => return some s
    | i :: queue =>
      match budget with
      | 0 => return none
      | budget + 1 => do
        let s ← visit p g bottom s i queue
        run p g bottom budget s

/-- The states around the statements of the blocks of a list, from the blocks' exits; they have to
lead back to the blocks' entries. -/
def refine (p : Problem σ S) (g : Graph) (bottom : S) (s : State S) :
    List Nat → EStateM AnalysisError σ (List (Point S))
  | [] => return []
  | i :: rest => do
    let (entry, points) ← p.points (g.stmts i) (s.exits.getD i bottom)
    unless entry = s.entries.getD i bottom do
      throw (.internal (.mismatch i))
    let more ← refine p g bottom s rest
    return points ++ more

/-- The first state: bottom or the seed at each block, with all blocks waiting. -/
def start (g : Graph) (order : Order) (seed : Seed S) (bottom : S) : State S where
  entries := (Array.range g.size).map fun i => (seed.entry? i).getD bottom
  exits := (Array.range g.size).map fun i => (seed.exit? i).getD bottom
  queue := g.worklist order
  visits := []

end Solver

/-- Solves a backward problem on a graph with a worklist, in at most `budget` visits. A graph without
statements keeps the states that it starts from. -/
def Problem.solve {σ S : Type} [DecidableEq S] (p : Problem σ S) (g : Graph) (o : Options)
    (seed : Seed S) (budget : Nat) : EStateM AnalysisError σ (Solution S) := do
  if o.check then
    Problem.lift g.check
  let bottom ← p.bottom
  let s := Solver.start g o.order seed bottom
  if g.statements.isEmpty then
    return ⟨s.entries, s.exits, [], []⟩
  match ← Solver.run p g bottom budget s with
  | none => throw (.internal (.unsettled budget))
  | some s =>
    let points ← Solver.refine p g bottom s g.indices
    return ⟨s.entries, s.exits, points, s.visits.reverse⟩

end Backflow
