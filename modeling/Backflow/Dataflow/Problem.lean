import Backflow.Graph.Check

namespace Backflow

/-- A backward problem over states `S`. The operations may fail, and may keep a memory of type `σ`
from one call to the next. -/
structure Problem (σ S : Type) where
  /-- The state of every block at first, and after a block without successors. -/
  bottom : EStateM AnalysisError σ S
  join : S → S → EStateM AnalysisError σ S
  /-- From the state after a statement to the state before it. -/
  transfer : Stmt → S → EStateM AnalysisError σ S
  /-- Whether the first state is above the second. -/
  includes : S → S → Bool
  text : S → String

namespace Problem

variable {σ S : Type}

def lift {α : Type} : Except AnalysisError α → EStateM AnalysisError σ α
  | .ok a => fun s => .ok a s
  | .error e => fun s => .error e s

/-- The join of a state with those of a list, from left to right. -/
def joinAll (p : Problem σ S) (state : S) : List S → EStateM AnalysisError σ S
  | [] => return state
  | x :: xs => do
    let state ← p.join state x
    p.joinAll state xs

/-- The state before a list of statements, from the state after it. -/
def before (p : Problem σ S) : List Stmt → S → EStateM AnalysisError σ S
  | [], state => return state
  | s :: rest, state => do
    let after ← p.before rest state
    p.transfer s after

end Problem

/-- The states around a statement. -/
structure Point (S : Type) where
  stmt : Stmt
  before : S
  after : S

/-- The states around each of a list of statements, and the state before all of them. -/
def Problem.points {σ S : Type} (p : Problem σ S) :
    List Stmt → S → EStateM AnalysisError σ (S × List (Point S))
  | [], state => return (state, [])
  | s :: rest, state => do
    let (after, points) ← p.points rest state
    let before ← p.transfer s after
    return (before, ⟨s, before, after⟩ :: points)

end Backflow
